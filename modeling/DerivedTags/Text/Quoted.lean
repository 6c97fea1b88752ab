import DerivedTags.Text.Letter
import DerivedTags.Text.QuotedTable

/-!
# Quoted text in messages

A text inside a message stands between double quotes. Quotes, backslashes
and the common controls are escaped with a backslash; a character without a
glyph, or one that would join its neighbour, is written as its code point.
-/

namespace DerivedTags.Text

/-- The number in lower case hexadecimal digits, without leading zeros. -/
def hexText (n : Nat) : List Char := Nat.toDigits 16 n

/-- How one character is written between quotes. -/
def quotedChar (c : Char) : List Char :=
  if c == '\x00' then ['\\', '0']
  else if c == '\t' then ['\\', 't']
  else if c == '\r' then ['\\', 'r']
  else if c == '\n' then ['\\', 'n']
  else if c == '\\' || c == '"' then ['\\', c]
  else if c == ' ' then [c]
  else if inRanges extenderRanges c.toNat || inRanges glyphlessRanges c.toNat then
    ['\\', 'u', '\x7b'] ++ hexText c.toNat ++ ['\x7d']
  else [c]

/-- The text between double quotes. -/
def quoted (s : String) : String :=
  String.ofList ('"' :: s.toList.flatMap quotedChar ++ ['"'])

end DerivedTags.Text
