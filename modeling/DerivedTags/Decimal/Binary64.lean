/-!
# Exact reading of double precision numbers

A finite double is a sign, a natural mantissa and a power of two. Everything
written in decimal is computed from these in exact natural arithmetic.
-/

namespace DerivedTags.Decimal

/-- The finite number `± mantissa · 2 ^ exponent`. -/
structure Dyadic where
  /-- Whether the sign bit is set; zero has a sign of its own. -/
  negative : Bool
  /-- The mantissa, with its leading bit. -/
  mantissa : Nat
  /-- The power of two of the last bit of the mantissa. -/
  exponent : Int
  deriving DecidableEq, Repr

/-- The leading bit of a mantissa, which the bits of a double leave out. -/
def leadingBit : Nat := 4503599627370496

/-- The sign bit of a double. -/
def signBit : Nat := 9223372036854775808

/-- The fields of a finite double; infinities and what is no number have none. -/
def decode (x : Float) : Option Dyadic :=
  let bits : Nat := x.toBits.toNat
  let fraction : Nat := bits % leadingBit
  let scale : Nat := bits / leadingBit % 2048
  let negative := bits / signBit == 1
  if scale == 2047 then none
  else if scale == 0 then some ⟨negative, fraction, -1074⟩
  else some ⟨negative, leadingBit + fraction, (scale : Int) - 1075⟩

/-- A power with an integer exponent, as a fraction of naturals. -/
def powerRatio (base : Nat) (exponent : Int) : Nat × Nat :=
  (Nat.pow base exponent.toNat, Nat.pow base (-exponent).toNat)

/-- The magnitude of a number times a power of ten, as a fraction. -/
def Dyadic.scaled (d : Dyadic) (places : Int) : Nat × Nat :=
  let two := powerRatio 2 d.exponent
  let ten := powerRatio 10 places
  (d.mantissa * two.1 * ten.1, two.2 * ten.2)

/-- The power of ten of the leading digit of a positive fraction. The bit
lengths give it up to one; the estimate is then corrected by comparison. -/
def leadingPower (num den : Nat) : Int :=
  let bits : Int := (num.log2 : Int) - den.log2
  let low := (bits - 1) * 30103 / 100000 - 1
  let reaches (power : Int) : Bool :=
    let ten := powerRatio 10 power
    den * ten.1 ≤ num * ten.2
  if reaches (low + 3) then low + 3
  else if reaches (low + 2) then low + 2
  else if reaches (low + 1) then low + 1
  else low

/-- The decimal digits of a natural number. -/
def digitsOf (n : Nat) : List Char := Nat.toDigits 10 n

/-- The digits of a natural number, with zeros in front up to a width. -/
def padded (width n : Nat) : List Char :=
  let digits := digitsOf n
  List.replicate (width - digits.length) '0' ++ digits

end DerivedTags.Decimal
