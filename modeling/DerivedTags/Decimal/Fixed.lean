import DerivedTags.Decimal.Binary64

/-!
# Decimals with a fixed number of places

The exact binary value is rounded to the last place asked for; an exact half
goes to the even neighbour. The sign of zero is kept.
-/

namespace DerivedTags.Decimal

/-- A fraction rounded to the nearest natural number, a half to the even one. -/
def roundHalfEven (num den : Nat) : Nat :=
  let quotient := num / den
  let rest := num % den
  if 2 * rest < den then quotient
  else if 2 * rest > den then quotient + 1
  else quotient + quotient % 2

/-- A finite number with exactly `places` digits after the point. -/
def fixedText (places : Nat) (d : Dyadic) : List Char :=
  let sign := if d.negative then ['-'] else []
  let ratio := d.scaled places
  let digits := padded (places + 1) (roundHalfEven ratio.1 ratio.2)
  let whole := digits.take (digits.length - places)
  sign ++ whole ++ if places == 0 then [] else '.' :: digits.drop (digits.length - places)

end DerivedTags.Decimal
