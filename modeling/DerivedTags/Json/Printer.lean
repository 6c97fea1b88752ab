import DerivedTags.Decimal.Shortest
import DerivedTags.Json.Basic

/-!
# Compact JSON text

No blanks are written. In texts only quotes, backslashes and control
characters are escaped; all other characters stand for themselves.
-/

namespace DerivedTags.Json

/-- One hexadecimal digit in lower case. -/
def hexDigit (n : Nat) : Char := Nat.digitChar n

/-- How one character is written inside a JSON text. -/
def escapeChar (c : Char) : List Char :=
  if c == '"' then ['\\', '"']
  else if c == '\\' then ['\\', '\\']
  else if c == '\n' then ['\\', 'n']
  else if c == '\r' then ['\\', 'r']
  else if c == '\t' then ['\\', 't']
  else if c == '\x08' then ['\\', 'b']
  else if c == '\x0c' then ['\\', 'f']
  else if c.toNat < 32 then
    ['\\', 'u', '0', '0', hexDigit (c.toNat / 16), hexDigit (c.toNat % 16)]
  else [c]

/-- A JSON text with its quotes. -/
def renderString (s : String) : List Char :=
  '"' :: s.toList.flatMap escapeChar ++ ['"']

/-- An integer in decimal digits. -/
def renderInt (n : Int) : List Char :=
  if n < 0 then '-' :: Decimal.digitsOf n.natAbs else Decimal.digitsOf n.natAbs

/-- A number. A double always shows that it is one. -/
def renderNumber : JsonNumber → List Char
  | .int n => renderInt n.toInt
  | .big n => Decimal.digitsOf n.toNat
  | .float x =>
    match Decimal.decode x with
    | some d => Decimal.jsonText d
    | none => ['n', 'u', 'l', 'l']

mutual

/-- The compact text of a value. -/
def render : Json → List Char
  | .null => ['n', 'u', 'l', 'l']
  | .bool true => ['t', 'r', 'u', 'e']
  | .bool false => ['f', 'a', 'l', 's', 'e']
  | .num n => renderNumber n
  | .str s => renderString s
  | .arr items => '[' :: renderItems items ++ [']']
  | .obj members => '\x7b' :: renderMembers members ++ ['\x7d']

/-- The items of an array with commas between them. -/
def renderItems : List Json → List Char
  | [] => []
  | item :: rest => render item ++ renderMoreItems rest

/-- The items after the first one, each behind a comma. -/
def renderMoreItems : List Json → List Char
  | [] => []
  | item :: rest => ',' :: render item ++ renderMoreItems rest

/-- The members of an object with commas between them. -/
def renderMembers : List (String × Json) → List Char
  | [] => []
  | (key, value) :: rest => renderString key ++ ':' :: render value ++ renderMoreMembers rest

/-- The members after the first one, each behind a comma. -/
def renderMoreMembers : List (String × Json) → List Char
  | [] => []
  | (key, value) :: rest =>
    ',' :: renderString key ++ ':' :: render value ++ renderMoreMembers rest

end

/-- The compact text of a value as a string. -/
def text (v : Json) : String := String.ofList v.render

end DerivedTags.Json
