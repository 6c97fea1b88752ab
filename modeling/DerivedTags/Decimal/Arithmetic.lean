import DerivedTags.Decimal.Binary64

/-!
# Operations on doubles

A double that is known exactly is turned back into bits, compared with the
integers, and divided with remainder. The remainder of two finite doubles is
itself a double, so no rounding takes place. Sums and extremes fix what
floating point leaves open: the start of a sum and the choice between zeros.
-/

namespace DerivedTags.Decimal

/-- The double with the given sign whose value is `mantissa · 2 ^ exponent`;
bits that do not fit are dropped. -/
def encode (d : Dyadic) : Float :=
  let sign : Nat := if d.negative then signBit else 0
  if d.mantissa == 0 then Float.ofBits (UInt64.ofNat sign)
  else
    let last : Int := max ((d.mantissa.log2 : Int) + d.exponent - 52) (-1074)
    let mantissa := d.mantissa <<< (d.exponent - last).toNat >>> (last - d.exponent).toNat
    if mantissa < leadingBit then Float.ofBits (UInt64.ofNat (sign + mantissa))
    else Float.ofBits (UInt64.ofNat (sign + (last + 1074).toNat * leadingBit + mantissa))

/-- Whether a finite number is an integer. -/
def Dyadic.isWhole (d : Dyadic) : Bool := d.mantissa % Nat.pow 2 (-d.exponent).toNat == 0

/-- The integer part of a finite number, toward zero. -/
def Dyadic.wholePart (d : Dyadic) : Int :=
  let two := powerRatio 2 d.exponent
  let magnitude : Int := (d.mantissa * two.1 / two.2 : Nat)
  if d.negative then -magnitude else magnitude

/-- Whether a double is a finite integer. -/
def isWhole (x : Float) : Bool :=
  match decode x with
  | some d => d.isWhole
  | none => false

/-- The remainder of a division truncated toward zero. It has the sign of the
dividend; a divisor of zero and a dividend that is not finite have none. -/
def remainder (x y : Float) : Float :=
  match decode x, decode y with
  | some a, some b =>
    if b.mantissa == 0 then 0.0 / 0.0
    else
      let least := min a.exponent b.exponent
      let dividend := a.mantissa <<< (a.exponent - least).toNat
      let divisor := b.mantissa <<< (b.exponent - least).toNat
      encode ⟨a.negative, dividend % divisor, least⟩
  | some _, none => if y.isNaN then y else x
  | none, _ => 0.0 / 0.0

/-- The sum of doubles from the left. The empty sum is the negative zero,
which leaves every summand as it is. -/
def sum (xs : List Float) : Float := xs.foldl (· + ·) (-0.0)

/-- The smaller of two doubles. The second one counts only if it is strictly
smaller or the first one is no number. -/
def lesser (x y : Float) : Float := if x.isNaN || y < x then y else x

/-- The larger of two doubles. The second one counts only if it is strictly
larger or the first one is no number. -/
def greater (x y : Float) : Float := if x.isNaN || x < y then y else x

/-- The place of a double in the total order of all doubles: by value, the
negative zero before the positive one, what is no number at the ends. -/
def totalRank (x : Float) : Int :=
  let bits := x.toBits.toNat
  if bits < signBit then bits else (signBit : Int) - 1 - bits

end DerivedTags.Decimal
