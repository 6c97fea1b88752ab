import DerivedTags.Decimal.Range

/-!
# Reading numbers from text

A numeral is a sign, digits with at most one point, and an exponent. The
value is the double nearest to the decimal, computed in one rounding.
-/

namespace DerivedTags.Decimal

/-- The value of one digit of ASCII. -/
def digitValue (c : Char) : Nat := c.toNat - 48

/-- The natural number that a list of digits denotes. -/
def naturalOf (digits : List Char) : Nat :=
  digits.foldl (fun n c => 10 * n + digitValue c) 0

/-- Digits at the start of a text, and what follows them. -/
def spanDigits (cs : List Char) : List Char × List Char :=
  (cs.takeWhile Char.isDigit, cs.dropWhile Char.isDigit)

/-- A sign at the start of a text, true for minus, and what follows it. -/
def spanSign : List Char → Bool × List Char
  | '-' :: cs => (true, cs)
  | '+' :: cs => (false, cs)
  | cs => (false, cs)

/-- The double nearest to `digits · 10 ^ exponent`. Numbers beyond the range
of doubles are decided by their magnitude alone. -/
def nearestDouble (digits : Nat) (exponent : Int) : Float :=
  let magnitude : Int := (Nat.toDigits 10 digits).length + exponent
  if digits == 0 || magnitude < -330 then 0.0
  else if magnitude > 310 then 1.0 / 0.0
  else Float.ofScientific digits (exponent < 0) exponent.natAbs

/-- The exponent part of a numeral: nothing, or a mark, a sign and at least
one digit. Nothing may follow it. -/
def exponentOf : List Char → Option Int
  | [] => some 0
  | mark :: cs =>
    if mark == 'e' || mark == 'E' then
      let (negative, rest) := spanSign cs
      let (digits, after) := spanDigits rest
      if digits.isEmpty || !after.isEmpty then none
      else some (if negative then -(naturalOf digits : Int) else naturalOf digits)
    else none

/-- The magnitude of an unsigned numeral: digits on at least one side of the
point, then an exponent. -/
def unsignedDouble (cs : List Char) : Option Float :=
  let (whole, rest) := spanDigits cs
  let (fraction, rest) :=
    match rest with
    | '.' :: after => spanDigits after
    | _ => ([], rest)
  if whole.isEmpty && fraction.isEmpty then none
  else
    (exponentOf rest).map fun exponent =>
      nearestDouble (naturalOf (whole ++ fraction)) (exponent - fraction.length)

/-- The double that a text denotes: a signed numeral, or the name of an
infinity or of not-a-number in any case. -/
def double? (cs : List Char) : Option Float :=
  let (negative, rest) := spanSign cs
  let name := rest.map Char.toLower
  let magnitude :=
    if name == "inf".toList || name == "infinity".toList then some (1.0 / 0.0)
    else if name == "nan".toList then some (0.0 / 0.0)
    else unsignedDouble rest
  magnitude.map fun x => if negative then -x else x

/-- The 64-bit integer that a sign and digits denote, if it fits. -/
def int64? (cs : List Char) : Option Int64 :=
  let (negative, digits) := spanSign cs
  if digits.isEmpty || !digits.all Char.isDigit then none
  else
    signed? (if negative then -(naturalOf digits : Int) else naturalOf digits)

/-- The position that digits, after an optional plus, denote, if it fits an
unsigned machine word. -/
def index? (cs : List Char) : Option Nat :=
  let digits :=
    match cs with
    | '+' :: rest => rest
    | _ => cs
  if digits.isEmpty || !digits.all Char.isDigit then none
  else
    let n := naturalOf digits
    if isWord n then some n else none

end DerivedTags.Decimal
