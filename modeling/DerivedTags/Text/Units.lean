/-!
# The length of a text in UTF-16 units

Snippets measure the length of a text in 16-bit units: a character outside
the basic plane counts twice.
-/

namespace DerivedTags.Text

/-- The number of 16-bit units of one character. -/
def unitsOf (c : Char) : Nat := if c.toNat < 65536 then 1 else 2

/-- The number of 16-bit units of a text. -/
def units : List Char → Nat
  | [] => 0
  | c :: rest => unitsOf c + units rest

/-- Units add up over parts of a text. -/
theorem units_append (a b : List Char) : units (a ++ b) = units a + units b := by
  induction a with
  | nil => simp [units]
  | cons c rest ih =>
    simp only [List.cons_append, units, ih]
    omega

/-- A text of the basic plane has one unit for each character. -/
theorem units_eq_length {cs : List Char} (h : ∀ c ∈ cs, c.toNat < 65536) :
    units cs = cs.length := by
  induction cs with
  | nil => rfl
  | cons c cs ih =>
    have head : unitsOf c = 1 := by simp [unitsOf, h c (by simp)]
    have tail := ih fun d hd => h d (by simp [hd])
    simp only [units, List.length_cons]
    omega

/-- A text has at least one unit for each character. -/
theorem length_le_units (cs : List Char) : cs.length ≤ units cs := by
  induction cs with
  | nil => exact Nat.le_refl 0
  | cons c cs ih =>
    have one : 1 ≤ unitsOf c := by
      unfold unitsOf
      split <;> decide
    simp only [List.length_cons, units]
    omega

/-- Only a text of the basic plane has one unit for each character. -/
theorem units_eq_length_iff {cs : List Char} :
    units cs = cs.length ↔ ∀ c ∈ cs, c.toNat < 65536 := by
  refine ⟨fun same => ?_, units_eq_length⟩
  induction cs with
  | nil => simp
  | cons c cs ih =>
    have least := length_le_units cs
    simp only [units, List.length_cons] at same
    by_cases basic : c.toNat < 65536
    · have one : unitsOf c = 1 := if_pos basic
      exact List.forall_mem_cons.mpr ⟨basic, ih (by omega)⟩
    · have two : unitsOf c = 2 := if_neg basic
      omega

end DerivedTags.Text
