/-!
# Ranges of integers

Integers have 64 bits, with a sign unless they are too large for it. The
bounds stand here as numerals; what lies outside them is no such integer.
-/

namespace DerivedTags.Decimal

/-- The integer, if it has 64 bits with a sign. -/
def signed? (n : Int) : Option Int64 :=
  if -9223372036854775808 ≤ n ∧ n ≤ 9223372036854775807 then some (Int64.ofInt n) else none

/-- The result is the one integer of 64 bits with the same value. -/
theorem signed?_eq_some_iff {n : Int} {x : Int64} : signed? n = some x ↔ x.toInt = n := by
  have low := x.le_toInt
  have high := x.toInt_lt
  unfold signed?
  constructor
  · intro h
    split at h
    · rename_i range
      obtain ⟨above, below⟩ := range
      simp only [Option.some.injEq] at h
      rw [← h]
      exact Int64.toInt_ofInt_of_le (by simpa using above) (by simp; omega)
    · simp at h
  · rintro rfl
    rw [if_pos (by omega), Int64.ofInt_toInt]

/-- The nearest integer that has 64 bits with a sign. -/
def nearestSigned (n : Int) : Int64 :=
  Int64.ofInt (max (-9223372036854775808) (min 9223372036854775807 n))

/-- Whether a natural number has 64 bits. -/
def isWord (n : Nat) : Bool := n < 18446744073709551616

end DerivedTags.Decimal
