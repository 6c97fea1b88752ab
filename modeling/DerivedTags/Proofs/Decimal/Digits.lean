import Mathlib.Data.Nat.Digits.Defs
import DerivedTags.Decimal.Numeral
import DerivedTags.Decimal.Binary64

/-!
# Digits read back

The decimal digits of a natural number denote it, there is at least one, and they do not
begin with a zero unless that is all.
-/

namespace DerivedTags.Decimal

/-- Digits are digits. -/
theorem isDigit_of_mem_digitsOf {n : Nat} {c : Char} (mem : c ∈ digitsOf n) :
    c.isDigit = true := Nat.isDigit_of_mem_toDigits (by omega) (by omega) mem

/-- There is at least one digit. -/
theorem digitsOf_ne_nil {n : Nat} : digitsOf n ≠ [] := Nat.toDigits_ne_nil

/-- The digits of a number begin with a digit. -/
theorem exists_digit_cons (n : Nat) : ∃ c more, digitsOf n = c :: more ∧ c.isDigit = true := by
  obtain ⟨c, more, digits⟩ := List.exists_cons_of_ne_nil (digitsOf_ne_nil (n := n))
  have mem : c ∈ digitsOf n := digits ▸ List.mem_cons_self
  exact ⟨c, more, digits, isDigit_of_mem_digitsOf mem⟩

/-- The digits of a number denote it. -/
theorem naturalOf_digitsOf (n : Nat) : naturalOf (digitsOf n) = n := by
  have read : Nat.ofDigitChars 10 (digitsOf n) 0 = n :=
    Nat.ofDigitChars_toDigits (by omega) (by omega)
  rw [Nat.ofDigitChars_eq_foldl] at read
  exact read

/-- Only zero begins with a zero. -/
theorem eq_zero_of_head?_digitsOf {n : Nat} (zero : (digitsOf n).head? = some '0') : n = 0 := by
  induction n using Nat.strong_induction_on with
  | _ n ih =>
    rw [digitsOf, Nat.toDigits_eq_if (by omega)] at zero
    split at zero
    · have digit : n.digitChar = '0' := by simpa using zero
      exact Nat.digitChar_eq_zero.mp digit
    · rename_i large
      have front : (digitsOf (n / 10)).head? = some '0' := by
        obtain ⟨c, more, digits⟩ := List.exists_cons_of_ne_nil (digitsOf_ne_nil (n := n / 10))
        rw [← digitsOf, digits] at zero
        rw [digits]
        exact zero
      have none := ih (n / 10) (by omega) front
      omega

/-- The characters of one kind are taken up to the first one of another kind. -/
theorem span_append {kind : Char → Bool} {cs rest : List Char} (all : ∀ c ∈ cs, kind c = true)
    (ends : ∀ c ∈ rest.head?, kind c = false) :
    (cs ++ rest).takeWhile kind = cs ∧ (cs ++ rest).dropWhile kind = rest := by
  rw [List.takeWhile_append_of_pos all, List.dropWhile_append_of_pos all]
  cases rest with
  | nil => exact ⟨List.append_nil cs, rfl⟩
  | cons c rest =>
    have other : kind c = false := ends c rfl
    simp [other]

/-- The digits of a number are read up to what is no digit. -/
theorem spanDigits_digitsOf (n : Nat) {rest : List Char}
    (ends : ∀ c ∈ rest.head?, c.isDigit = false) :
    spanDigits (digitsOf n ++ rest) = (digitsOf n, rest) := by
  obtain ⟨taken, left⟩ := span_append (fun c => isDigit_of_mem_digitsOf) ends
  rw [spanDigits, taken, left]

/-- Digits have no sign in front. -/
theorem spanSign_digitsOf (n : Nat) : spanSign (digitsOf n) = (false, digitsOf n) := by
  obtain ⟨c, more, digits, digit⟩ := exists_digit_cons n
  rw [digits]
  unfold spanSign
  split
  · rename_i minus
    rw [(List.cons.inj minus).1] at digit
    contradiction
  · rename_i plus
    rw [(List.cons.inj plus).1] at digit
    contradiction
  · rfl

/-- The digits of an integer from zero up denote it. -/
theorem int64?_digitsOf {i : Int64} (nonneg : 0 ≤ i) :
    int64? (digitsOf i.toInt.natAbs) = some i := by
  have same : (i.toInt.natAbs : Int) = i.toInt :=
    Int.natAbs_of_nonneg (Int64.le_iff_toInt_le.mp nonneg)
  have empty : (digitsOf i.toInt.natAbs).isEmpty = false := by simp [digitsOf_ne_nil]
  have all : (digitsOf i.toInt.natAbs).all Char.isDigit = true :=
    List.all_eq_true.mpr fun c => isDigit_of_mem_digitsOf
  simp only [int64?, spanSign_digitsOf, empty, all, naturalOf_digitsOf, same]
  exact signed?_eq_some_iff.mpr rfl

end DerivedTags.Decimal
