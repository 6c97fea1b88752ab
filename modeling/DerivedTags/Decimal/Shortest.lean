import DerivedTags.Decimal.Binary64

/-!
# The shortest decimal that reads back

Of all decimals that round to a given double, the one with the fewest
digits is written, and of those the nearest to the double. Two formats use
it: plain numbers, which are always positional, and JSON numbers, which turn
to an exponent when the point would stand far from the digits.
-/

namespace DerivedTags.Decimal

/-- A whole number scaled by a power of ten: `digits · 10 ^ power`. -/
structure Scaled where
  /-- All digits as one natural number. -/
  digits : Nat
  /-- The power of ten of the last digit. -/
  power : Int
  deriving DecidableEq, Repr

/-- Which of two equally near neighbours is taken. -/
inductive Tie where
  /-- The larger one. -/
  | up
  /-- The one with an even last digit. -/
  | even

/-- The four quarters around a mantissa: the number itself and the two ends
of the interval of reals that round to it, in quarters of its last bit. The
lower neighbour is twice as near below a power of two. -/
structure Rounding where
  /-- Lower end of the interval. -/
  low : Nat
  /-- The number. -/
  value : Nat
  /-- Upper end of the interval. -/
  high : Nat
  /-- Whether the ends belong to the interval. -/
  closed : Bool

/-- The rounding interval of a positive number. -/
def Dyadic.rounding (d : Dyadic) : Rounding :=
  let below := if d.mantissa == leadingBit && d.exponent > -1074 then 1 else 2
  ⟨4 * d.mantissa - below, 4 * d.mantissa, 4 * d.mantissa + 2, d.mantissa % 2 == 0⟩

/-- The nearer of the two neighbours of a number on the grid of a power of
ten, if one of them lies in the rounding interval. Quarters are counted in
units of `num / den`. -/
def gridHit (tie : Tie) (r : Rounding) (num den : Nat) (power : Int) : Option Scaled :=
  let ten := powerRatio 10 power
  let unit := den * ten.1
  let scale := num * ten.2
  let inside (n : Nat) : Bool :=
    if r.closed then r.low * scale ≤ n * unit && n * unit ≤ r.high * scale
    else r.low * scale < n * unit && n * unit < r.high * scale
  let floor := r.value * scale / unit
  let above := r.value * scale - floor * unit
  let below := (floor + 1) * unit - r.value * scale
  let preferUpper := above > below || above == below &&
    match tie with
    | .up => true
    | .even => floor % 2 == 1
  match inside floor && floor > 0, inside (floor + 1) with
  | true, true => some ⟨if preferUpper then floor + 1 else floor, power⟩
  | true, false => some ⟨floor, power⟩
  | false, true => some ⟨floor + 1, power⟩
  | false, false => none

/-- The first grid with a hit, from `count` grids downward from a power. -/
def firstHit (tie : Tie) (r : Rounding) (num den : Nat) : Nat → Int → Option Scaled
  | 0, _ => none
  | count + 1, power =>
    match gridHit tie r num den power with
    | some decimal => some decimal
    | none => firstHit tie r num den count (power - 1)

/-- The shortest decimal that reads back as a positive number. Seventeen
digits always suffice. -/
def Dyadic.shortest (tie : Tie) (d : Dyadic) : Scaled :=
  let r := d.rounding
  let two := powerRatio 2 (d.exponent - 2)
  let lead := leadingPower (r.value * two.1) two.2
  match firstHit tie r two.1 two.2 18 (lead + 1) with
  | some decimal => decimal
  | none => ⟨0, 0⟩

/-- Digits with a point placed so that `whole` of them stand before it. Zeros
fill what is missing on either side; without a fraction there is no point. -/
def positional (digits : List Char) (whole : Int) : List Char :=
  if whole ≤ 0 then '0' :: '.' :: List.replicate (-whole).toNat '0' ++ digits
  else
    let count := whole.toNat
    if digits.length ≤ count then digits ++ List.replicate (count - digits.length) '0'
    else digits.take count ++ '.' :: digits.drop count

/-- A finite number in plain positional notation, shortest digits. -/
def plainText (d : Dyadic) : List Char :=
  let sign := if d.negative then ['-'] else []
  if d.mantissa == 0 then sign ++ ['0']
  else
    let decimal := d.shortest .up
    let digits := digitsOf decimal.digits
    sign ++ positional digits (digits.length + decimal.power)

/-- How many digits may stand before the point of a JSON number. -/
def jsonWholeLimit : Int := 16

/-- How many digits before the point, counted below zero for zeros after it,
a JSON number needs at least to be positional. -/
def jsonWholeLeast : Int := -4

/-- A finite number as JSON text: always with a point or an exponent,
positional while the point stands near the digits. An exponent carries its
sign, also above zero: `1e+16`. -/
def jsonText (d : Dyadic) : List Char :=
  let sign := if d.negative then ['-'] else []
  if d.mantissa == 0 then sign ++ ['0', '.', '0']
  else
    let decimal := d.shortest .even
    let digits := digitsOf decimal.digits
    let whole : Int := digits.length + decimal.power
    sign ++
      if 0 ≤ decimal.power && whole ≤ jsonWholeLimit then positional digits whole ++ ['.', '0']
      else if jsonWholeLeast ≤ whole && whole ≤ jsonWholeLimit then positional digits whole
      else
        let exponent := whole - 1
        let mark := if exponent < 0 then ['e', '-'] else ['e', '+']
        digits.take 1 ++ (if digits.length == 1 then [] else '.' :: digits.drop 1) ++
          mark ++ digitsOf exponent.natAbs

end DerivedTags.Decimal
