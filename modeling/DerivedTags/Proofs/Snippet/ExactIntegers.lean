import DerivedTags.Proofs.Snippet.FoldedConstants
import DerivedTags.Snippet.Token

/-!
# Exact results of integer operators

The five arithmetic operators give the exact result for two integers of 64 bits where
there is one and it has 64 bits, and a double everywhere else. They give a double as well
as soon as one operand is a double, and never stop.
-/

namespace DerivedTags.Snippet

namespace Whole

/-- Whether an integer has 64 bits with a sign. -/
def Fits (n : Int) : Prop := -9223372036854775808 ≤ n ∧ n ≤ 9223372036854775807

instance (n : Int) : Decidable (Fits n) :=
  inferInstanceAs (Decidable (-9223372036854775808 ≤ n ∧ n ≤ 9223372036854775807))

/-- An integer of 64 bits has them. -/
theorem fits_toInt (a : Int64) : Fits a.toInt := ⟨a.le_toInt, Int.le_of_lt_add_one a.toInt_lt⟩

/-- An integer that has 64 bits is one of those. -/
theorem Fits.exists_signed? {n : Int} (fits : Fits n) :
    ∃ k : Int64, Decimal.signed? n = some k ∧ k.toInt = n := by
  have found : Decimal.signed? n = some (Int64.ofInt n) := if_pos fits
  exact ⟨_, found, Decimal.signed?_eq_some_iff.mp found⟩

/-- No integer of 64 bits is one that has more. -/
theorem signed?_of_not_fits {n : Int} (beyond : ¬ Fits n) : Decimal.signed? n = none :=
  if_neg beyond

/-- The only division of integers whose quotient has more than 64 bits. -/
theorem quotientFits_eq_false_iff (a b : Int64) :
    quotientFits a b = false ↔ a.toInt = -9223372036854775808 ∧ b.toInt = -1 := by
  have least : a = Int64.minValue ↔ a.toInt = -9223372036854775808 := Int64.toInt_inj.symm
  have last : b = -1 ↔ b.toInt = -1 := Int64.toInt_inj.symm
  rw [← least, ← last, quotientFits]
  simp

/-- An integer is zero where its value is. -/
theorem beq_zero_iff (b : Int64) : (b == 0) = true ↔ b.toInt = 0 := by
  rw [beq_iff_eq]
  exact Int64.toInt_inj.symm

/-- A remainder is smaller than its divisor and has 64 bits. -/
theorem fits_tmod {a b : Int64} (nonzero : b.toInt ≠ 0) : Fits (a.toInt.tmod b.toInt) := by
  have low := b.le_toInt
  have high := b.toInt_lt
  have smaller : (a.toInt.tmod b.toInt).natAbs < b.toInt.natAbs := by
    rw [Int.natAbs_tmod]
    exact Nat.mod_lt _ (Int.natAbs_pos.mpr nonzero)
  constructor <;> omega

/-- The remainder of a division by another number than zero, also by one with which the
quotient has more than 64 bits. -/
theorem remainder?_getD {a b : Int64} (nonzero : b.toInt ≠ 0) :
    ((remainder? a b).getD 0).toInt = a.toInt.tmod b.toInt := by
  have other : (b == 0) = false := Bool.eq_false_iff.mpr (mt (beq_zero_iff b).mp nonzero)
  rcases fits : quotientFits a b
  · obtain ⟨least, last⟩ := (quotientFits_eq_false_iff a b).mp fits
    rw [remainder?, other, fits, least, last]
    rfl
  · obtain ⟨k, found, same⟩ := (fits_tmod (a := a) nonzero).exists_signed?
    obtain rfl : k = Int64.ofInt (a.toInt.tmod b.toInt) := by
      rw [← same, Int64.ofInt_toInt]
    rw [remainder?, other, fits]
    exact same

/-- A division is carried out exactly where it leaves no remainder, except for the one
whose quotient has more than 64 bits. -/
theorem remainder?_eq_zero_iff (a b : Int64) :
    remainder? a b = some 0 ↔
      b.toInt ≠ 0 ∧ b.toInt ∣ a.toInt ∧ quotientFits a b = true := by
  rcases zero : b == 0
  · have nonzero : b.toInt ≠ 0 := fun h => by simp [(beq_zero_iff b).mpr h] at zero
    rcases fits : quotientFits a b
    · simp [remainder?, fits]
    · have value := remainder?_getD (a := a) nonzero
      have found : remainder? a b = some ((remainder? a b).getD 0) := by
        simp [remainder?, zero, fits]
      rw [found, Option.some.injEq, ← Int64.toInt_inj, value, Int.dvd_iff_tmod_eq_zero]
      simp [nonzero]
  · simp [remainder?, zero, (beq_zero_iff b).mp zero]

/-- A quotient without remainder has 64 bits, except for the one of the least integer by
minus one. -/
theorem fits_ediv_iff {a b : Int64} (exact : b.toInt ∣ a.toInt) :
    Fits (a.toInt / b.toInt) ↔ quotientFits a b = true := by
  rcases fits : quotientFits a b
  · obtain ⟨least, last⟩ := (quotientFits_eq_false_iff a b).mp fits
    rw [least, last]
    decide
  · have whole := Int.mul_ediv_cancel' exact
    have size : (a.toInt / b.toInt).natAbs ≤ a.toInt.natAbs :=
      Int.natAbs_ediv_le_natAbs a.toInt b.toInt
    have low := a.le_toInt
    have high := a.toInt_lt
    have other : a.toInt / b.toInt ≠ 9223372036854775808 := by
      intro quotient
      rw [quotient] at whole
      have division : a.toInt = -9223372036854775808 ∧ b.toInt = -1 := by omega
      rw [(quotientFits_eq_false_iff a b).mpr division] at fits
      cases fits
    exact iff_of_true ⟨by omega, by omega⟩ rfl

/-- A division that is carried out gives the exact quotient. -/
theorem quotient_of_dvd {a b : Int64} (nonzero : b.toInt ≠ 0) (exact : b.toInt ∣ a.toInt)
    (fits : quotientFits a b = true) :
    ∃ n : Int64, quotient a b = .ok n ∧ n.toInt = a.toInt / b.toInt := by
  have other : (b == 0) = false := Bool.eq_false_iff.mpr (mt (beq_zero_iff b).mp nonzero)
  obtain ⟨n, -, same⟩ := ((fits_ediv_iff exact).mpr fits).exists_signed?
  refine ⟨n, ?_, same⟩
  rw [quotient, other, fits, Int.tdiv_eq_ediv_of_dvd exact, ← same, Int64.ofInt_toInt]
  rfl

end Whole

/-- The arithmetic operators between two operands. -/
inductive ArithmeticOp where
  /-- Sum. -/
  | sum
  /-- Difference. -/
  | difference
  /-- Product. -/
  | product
  /-- Quotient. -/
  | quotient
  /-- Remainder. -/
  | remainder
  deriving DecidableEq, Repr

namespace ArithmeticOp

open Whole

/-- An operator as it is written. -/
def operator : ArithmeticOp → Operator
  | .sum => .plus
  | .difference => .minus
  | .product => .times
  | .quotient => .slash
  | .remainder => .percent

/-- The exact result for two integers. A quotient is one only if the division leaves no
remainder; a remainder is that of the division truncated toward zero. -/
def exact : ArithmeticOp → Int → Int → Option Int
  | .sum, a, b => some (a + b)
  | .difference, a, b => some (a - b)
  | .product, a, b => some (a * b)
  | .quotient, a, b => if b ≠ 0 ∧ b ∣ a then some (a / b) else none
  | .remainder, a, b => if b ≠ 0 then some (a.tmod b) else none

/-- An operator on the values of its operands. -/
def apply : ArithmeticOp → Value → Value → Except Stop Value
  | .sum, a, b => .ok (addValues a b)
  | .difference, a, b => .ok (subValues a b)
  | .product, a, b => .ok (mulValues a b)
  | .quotient, a, b => divValues a b
  | .remainder, a, b => .ok (modValues a b)

/-- Integers whose exact result has 64 bits give it. -/
theorem apply_of_fits {o : ArithmeticOp} {a b : Int64} {n : Int}
    (found : o.exact a.toInt b.toInt = some n) (fits : Fits n) :
    ∃ k : Int64, o.apply (.int a) (.int b) = .ok (.int k) ∧ k.toInt = n := by
  obtain ⟨k, has, same⟩ := fits.exists_signed?
  cases o with
  | sum =>
    cases found
    exact ⟨k, by simp only [apply, addValues, add?, has], same⟩
  | difference =>
    cases found
    exact ⟨k, by simp only [apply, subValues, sub?, has], same⟩
  | product =>
    cases found
    exact ⟨k, by simp only [apply, mulValues, mul?, has], same⟩
  | quotient =>
    obtain ⟨⟨nonzero, divides⟩, result⟩ := Option.ite_none_right_eq_some.mp found
    cases result
    have possible := (fits_ediv_iff divides).mp fits
    obtain ⟨q, divided, value⟩ := quotient_of_dvd nonzero divides possible
    have even := (remainder?_eq_zero_iff a b).mpr ⟨nonzero, divides, possible⟩
    exact ⟨q, by rw [apply, divValues, if_pos even, divided], value⟩
  | remainder =>
    obtain ⟨nonzero, result⟩ := Option.ite_none_right_eq_some.mp found
    cases result
    have other := mt (beq_zero_iff b).mp nonzero
    exact ⟨_, by rw [apply, modValues, if_neg other], remainder?_getD nonzero⟩

/-- Integers without an exact result of 64 bits give a double. -/
theorem apply_of_not_fits {o : ArithmeticOp} {a b : Int64}
    (beyond : ∀ n, o.exact a.toInt b.toInt = some n → ¬ Fits n) :
    ∃ x, o.apply (.int a) (.int b) = .ok (.float x) := by
  cases o with
  | sum =>
    have none := signed?_of_not_fits (beyond _ rfl)
    exact ⟨toFloat a + toFloat b, by simp only [apply, addValues, add?, none]⟩
  | difference =>
    have none := signed?_of_not_fits (beyond _ rfl)
    exact ⟨toFloat a - toFloat b, by simp only [apply, subValues, sub?, none]⟩
  | product =>
    have none := signed?_of_not_fits (beyond _ rfl)
    exact ⟨toFloat a * toFloat b, by simp only [apply, mulValues, mul?, none]⟩
  | quotient =>
    have uneven : remainder? a b ≠ some 0 := fun even => by
      obtain ⟨nonzero, divides, possible⟩ := (remainder?_eq_zero_iff a b).mp even
      exact beyond _ (if_pos ⟨nonzero, divides⟩) ((fits_ediv_iff divides).mpr possible)
    exact ⟨_, by rw [apply, divValues, if_neg uneven]⟩
  | remainder =>
    by_cases zero : b.toInt = 0
    · exact ⟨_, by rw [apply, modValues, if_pos ((beq_zero_iff b).mpr zero)]⟩
    · exact absurd (fits_tmod zero) (beyond _ (if_pos zero))

/-- Two numbers of which one is a double give a double. -/
theorem apply_of_float (o : ArithmeticOp) {v w : Value} (left : Expr.IsNumber v)
    (right : Expr.IsNumber w) (inexact : (∃ x, v = .float x) ∨ ∃ x, w = .float x) :
    ∃ x, o.apply v w = .ok (.float x) := by
  rcases inexact with ⟨x, rfl⟩ | ⟨x, rfl⟩
  · cases w with
    | int _ | float _ => cases o <;> exact ⟨_, rfl⟩
    | _ => cases right
  · cases v with
    | int _ | float _ => cases o <;> exact ⟨_, rfl⟩
    | _ => cases left

end ArithmeticOp

end DerivedTags.Snippet
