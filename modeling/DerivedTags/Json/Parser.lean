import DerivedTags.Decimal.Numeral
import DerivedTags.Json.Basic

/-!
# Reading JSON text

The reader takes standard JSON and nothing else: no trailing commas, no
leading zeros, no bare control characters, no halves of surrogate pairs. The
levels of arrays and objects are limited. A decimal that is no integer is
scaled by one division or multiplication, not rounded in one step.
-/

namespace DerivedTags.Json

/-- The blanks of JSON: space, tab, line feed and carriage return. -/
def isJsonBlank (c : Char) : Bool := c == ' ' || c == '\t' || c == '\n' || c == '\r'

/-- The text without the blanks it begins with. -/
def skipBlank (cs : List Char) : List Char := cs.dropWhile isJsonBlank

/-- The value of a hexadecimal digit in either case. -/
def hexValue? (c : Char) : Option Nat :=
  if c.isDigit then some (c.toNat - 48)
  else if 'a' ≤ c && c ≤ 'f' then some (c.toNat - 87)
  else if 'A' ≤ c && c ≤ 'F' then some (c.toNat - 55)
  else none

/-- Four hexadecimal digits. -/
def hexUnit : List Char → Option (Nat × List Char)
  | a :: b :: c :: d :: rest =>
    match hexValue? a, hexValue? b, hexValue? c, hexValue? d with
    | some a, some b, some c, some d => some (4096 * a + 256 * b + 16 * c + d, rest)
    | _, _, _, _ => none
  | _ => none

/-- The character of an escape by code, after its mark. The first half of a
pair needs the second half right behind it. -/
def codeEscape (cs : List Char) : Option (Char × List Char) :=
  match hexUnit cs with
  | none => none
  | some (unit, rest) =>
    if 0xD800 ≤ unit && unit < 0xDC00 then
      match rest with
      | '\\' :: 'u' :: more =>
        match hexUnit more with
        | some (low, after) =>
          if 0xDC00 ≤ low && low < 0xE000 then
            some (Char.ofNat (0x10000 + (unit - 0xD800) * 1024 + (low - 0xDC00)), after)
          else none
        | none => none
      | _ => none
    else if 0xDC00 ≤ unit && unit < 0xE000 then none
    else some (Char.ofNat unit, rest)

/-- The character of an escape, after the backslash. -/
def escaped : List Char → Option (Char × List Char)
  | '"' :: rest => some ('"', rest)
  | '\\' :: rest => some ('\\', rest)
  | '/' :: rest => some ('/', rest)
  | 'b' :: rest => some ('\x08', rest)
  | 'f' :: rest => some ('\x0c', rest)
  | 'n' :: rest => some ('\n', rest)
  | 'r' :: rest => some ('\r', rest)
  | 't' :: rest => some ('\t', rest)
  | 'u' :: rest => codeEscape rest
  | _ => none

/-- The characters of a text up to its closing quote. The bound counts
characters read. -/
def stringBody : Nat → List Char → Option (List Char × List Char)
  | 0, _ => none
  | _, [] => none
  | steps + 1, c :: rest =>
    if c == '"' then some ([], rest)
    else if c == '\\' then do
      let (e, after) ← escaped rest
      let (s, last) ← stringBody steps after
      pure (e :: s, last)
    else if c.toNat < 32 then none
    else do
      let (s, last) ← stringBody steps rest
      pure (c :: s, last)

/-- A text after its opening quote. -/
def stringAfterQuote (cs : List Char) : Option (String × List Char) :=
  (stringBody cs.length cs).map fun (s, rest) => (String.ofList s, rest)

/-- The largest power of ten that scales a decimal in one step. -/
def largestScale : Nat := 308

/-- A significand times a power of ten by one multiplication or division.
Smaller powers are first taken off in steps; a result that is not finite is
refused. -/
def scaledDouble : Nat → Float → Int → Option Float
  | 0, _, _ => none
  | steps + 1, x, exponent =>
    if exponent.natAbs ≤ largestScale then
      let ten := Float.ofScientific 1 false exponent.natAbs
      let y := if 0 ≤ exponent then x * ten else x / ten
      if y.isFinite then some y else none
    else if x == 0.0 then some x
    else if 0 ≤ exponent then none
    else
      scaledDouble steps (x / Float.ofScientific 1 false largestScale)
        (exponent + largestScale)

/-- The digits of a significand that fit 64 bits, and how many are left over. -/
def significand : Nat → List Char → Nat × List Char
  | n, [] => (n, [])
  | n, c :: rest =>
    let next := 10 * n + Decimal.digitValue c
    if Decimal.isWord next then significand next rest else (n, c :: rest)

/-- The value of an exponent's digits. More than 32 signed bits count as
too large. -/
def smallExponent? (digits : List Char) : Option Nat :=
  let n := Decimal.naturalOf digits
  if n < 2147483648 then some n else none

/-- A decimal with a point or an exponent. Digits beyond 64 bits of the
significand are dropped; those before the point still scale it. -/
def decimalDouble (negative : Bool) (whole fraction : List Char) (smaller : Bool)
    (exponentDigits : List Char) : Option Float :=
  let (front, dropped) := significand 0 whole
  let (n, left) := significand front fraction
  let start : Int := (dropped.length : Int) - (fraction.length - left.length)
  let signed (x : Float) : Float := if negative then -x else x
  match smallExponent? exponentDigits with
  | none => if n == 0 || smaller then some (signed 0.0) else none
  | some e =>
    let exponent := if smaller then start - e else start + e
    let bounded := max (-2147483648) (min 2147483647 exponent)
    (scaledDouble (bounded.natAbs / largestScale + 2) (Float.ofNat n) bounded).map signed

/-- The exponent part after its mark: whether it is negative, its digits. -/
def exponentPart (cs : List Char) : Option ((Bool × List Char) × List Char) :=
  let (negative, rest) := Decimal.spanSign cs
  let (digits, after) := Decimal.spanDigits rest
  if digits.isEmpty then none else some ((negative, digits), after)

/-- The exponent part, if a mark stands here. -/
def optionalExponent : List Char → Option (Option (Bool × List Char) × List Char)
  | 'e' :: rest => (exponentPart rest).map fun (e, after) => (some e, after)
  | 'E' :: rest => (exponentPart rest).map fun (e, after) => (some e, after)
  | cs => some (none, cs)

/-- The digits after a point, if one stands here; there is at least one. -/
def optionalFraction : List Char → Option (Option (List Char) × List Char)
  | '.' :: rest =>
    let (digits, after) := Decimal.spanDigits rest
    if digits.isEmpty then none else some (some digits, after)
  | cs => some (none, cs)

/-- An integer, kept as one if it has 64 bits. A negative zero is a double. -/
def integerNumber (negative : Bool) (digits : List Char) : Option JsonNumber :=
  let n := Decimal.naturalOf digits
  if negative then
    if n == 0 then some (.float (-0.0))
    else
      match Decimal.signed? (-(n : Int)) with
      | some k => some (.int k)
      | none => (decimalDouble true digits [] false []).map .float
  else
    match JsonNumber.ofInt? n with
    | some number => some number
    | none => (decimalDouble false digits [] false []).map .float

/-- A number after its sign. A leading zero stands alone before the point. -/
def numberBody (negative : Bool) (cs : List Char) : Option (Json × List Char) := do
  let (whole, rest) := Decimal.spanDigits cs
  if whole.isEmpty || (whole.length > 1 && whole.head? == some '0') then none
  else
    let (fraction, rest) ← optionalFraction rest
    let (exponent, rest) ← optionalExponent rest
    let number ←
      match fraction, exponent with
      | none, none => integerNumber negative whole
      | _, _ =>
        let (smaller, digits) := exponent.getD (false, [])
        (decimalDouble negative whole (fraction.getD []) smaller digits).map .float
    pure (.num number, rest)

/-- The rest of a word of which the first character was seen. -/
def word (expected : List Char) (value : Json) (cs : List Char) : Option (Json × List Char) :=
  if expected.isPrefixOf cs then some (value, cs.drop expected.length) else none

/-- The items of an array after the first one, up to the closing bracket. The
bound counts items. -/
def moreItems (item : List Char → Option (Json × List Char)) :
    Nat → List Char → Option (List Json × List Char)
  | 0, _ => none
  | steps + 1, cs =>
    match skipBlank cs with
    | ']' :: rest => some ([], rest)
    | ',' :: rest => do
      let (value, after) ← item rest
      let (values, last) ← moreItems item steps after
      pure (value :: values, last)
    | _ => none

/-- An array after its opening bracket. -/
def arrayAfterBracket (item : List Char → Option (Json × List Char)) (cs : List Char) :
    Option (Json × List Char) :=
  match skipBlank cs with
  | ']' :: rest => some (.arr [], rest)
  | _ => do
    let (value, after) ← item cs
    let (values, last) ← moreItems item after.length after
    pure (.arr (value :: values), last)

/-- A member of an object: a key, a colon and a value. -/
def member (item : List Char → Option (Json × List Char)) (cs : List Char) :
    Option ((String × Json) × List Char) :=
  match skipBlank cs with
  | '"' :: rest => do
    let (key, after) ← stringAfterQuote rest
    match skipBlank after with
    | ':' :: rest => do
      let (value, last) ← item rest
      pure ((key, value), last)
    | _ => none
  | _ => none

/-- The members of an object after the first one, up to the closing brace.
The bound counts members. -/
def moreMembers (item : List Char → Option (Json × List Char)) :
    Nat → List Char → Option (List (String × Json) × List Char)
  | 0, _ => none
  | steps + 1, cs =>
    match skipBlank cs with
    | '\x7d' :: rest => some ([], rest)
    | ',' :: rest => do
      let (first, after) ← member item rest
      let (members, last) ← moreMembers item steps after
      pure (first :: members, last)
    | _ => none

/-- An object after its opening brace. -/
def objectAfterBrace (item : List Char → Option (Json × List Char)) (cs : List Char) :
    Option (Json × List Char) :=
  match skipBlank cs with
  | '\x7d' :: rest => some (.obj [], rest)
  | _ => do
    let (first, after) ← member item cs
    let (members, last) ← moreMembers item after.length after
    pure (object (first :: members), last)

/-- A value with at most `levels` levels of arrays and objects. -/
def value : Nat → List Char → Option (Json × List Char)
  | levels, cs =>
    match skipBlank cs with
    | 'n' :: rest => word ['u', 'l', 'l'] .null rest
    | 't' :: rest => word ['r', 'u', 'e'] (.bool true) rest
    | 'f' :: rest => word ['a', 'l', 's', 'e'] (.bool false) rest
    | '"' :: rest => (stringAfterQuote rest).map fun (s, after) => (.str s, after)
    | '-' :: rest => numberBody true rest
    | '[' :: rest =>
      match levels with
      | 0 => none
      | inner + 1 => arrayAfterBracket (value inner) rest
    | '\x7b' :: rest =>
      match levels with
      | 0 => none
      | inner + 1 => objectAfterBrace (value inner) rest
    | rest => numberBody false rest

/-- The value of a whole text with at most `levels` levels. -/
def parseWithin (levels : Nat) (s : String) : Option Json :=
  match value levels s.toList with
  | some (v, rest) => if (skipBlank rest).isEmpty then some v else none
  | none => none

/-- How many levels a text value of a feature may nest to be read as JSON. -/
def maxLevels : Nat := 127

/-- The value of a whole text. -/
def parse (s : String) : Option Json := parseWithin maxLevels s

end DerivedTags.Json
