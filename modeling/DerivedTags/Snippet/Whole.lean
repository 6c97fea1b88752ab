import DerivedTags.Decimal.Range
import DerivedTags.Snippet.Failure

/-!
# Integers of 64 bits

The arithmetic of integers in snippets is exact: an operation gives the
mathematical result if it has 64 bits and says so if it has not.
-/

namespace DerivedTags.Snippet.Whole

/-- The sum, if it has 64 bits. -/
def add? (a b : Int64) : Option Int64 := Decimal.signed? (a.toInt + b.toInt)

/-- The difference, if it has 64 bits. -/
def sub? (a b : Int64) : Option Int64 := Decimal.signed? (a.toInt - b.toInt)

/-- The product, if it has 64 bits. -/
def mul? (a b : Int64) : Option Int64 := Decimal.signed? (a.toInt * b.toInt)

/-- The negative, if it has 64 bits. -/
def neg? (a : Int64) : Option Int64 := Decimal.signed? (-a.toInt)

/-- Whether the quotient has 64 bits: only the least integer by minus one
has not. -/
def quotientFits (a b : Int64) : Bool := !(a == Int64.minValue && b == -1)

/-- The remainder of a division truncated toward zero, where the division
itself is possible. -/
def remainder? (a b : Int64) : Option Int64 :=
  if b == 0 || !quotientFits a b then none else some (Int64.ofInt (a.toInt.tmod b.toInt))

/-- The remainder where the caller answers for the operands. -/
def remainder (a b : Int64) : Except Panic Int64 :=
  if b == 0 then .error .remainderByZero
  else if !quotientFits a b then .error .remainderOverflow
  else .ok (Int64.ofInt (a.toInt.tmod b.toInt))

/-- The quotient truncated toward zero, where the caller answers for the
operands. -/
def quotient (a b : Int64) : Except Panic Int64 :=
  if b == 0 then .error .divisionByZero
  else if !quotientFits a b then .error .divisionOverflow
  else .ok (Int64.ofInt (a.toInt.tdiv b.toInt))

/-- The nearest double. -/
def toFloat (a : Int64) : Float := Float.ofInt a.toInt

end DerivedTags.Snippet.Whole
