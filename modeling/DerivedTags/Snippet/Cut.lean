import DerivedTags.Snippet.Failure
import DerivedTags.Text.Bytes

/-!
# Cuts of lists and texts

A cut is taken at positions for which the caller answers. Positions that do not fit break
the evaluation off.
-/

namespace DerivedTags.Snippet

/-- The part of a list between two positions. -/
def slice {α : Type} (low high : Nat) (xs : List α) : Except Stop (List α) :=
  if low ≤ high ∧ high ≤ xs.length then .ok ((xs.drop low).take (high - low))
  else .error (.panic .sliceRange)

/-- The part of a text before a byte position. -/
def textBefore (position : Nat) (cs : List Char) : Except Stop (List Char) :=
  match Text.upTo? position cs with
  | some part => .ok part
  | none => .error (.panic .charBoundary)

/-- Between positions in order and within the list there is a part. -/
theorem slice_of_le {α : Type} {low high : Nat} {xs : List α} (order : low ≤ high)
    (within : high ≤ xs.length) : slice low high xs = .ok ((xs.drop low).take (high - low)) :=
  if_pos ⟨order, within⟩

/-- Before the end of a part of a text stands that part. -/
theorem textBefore_bytes (front back : List Char) :
    textBefore (Text.bytes front) (front ++ back) = .ok front := by
  rw [textBefore, Text.upTo?_bytes]

/-- Before a boundary there is a part of the text. -/
theorem exists_textBefore {position : Nat} {cs : List Char}
    (boundary : Text.isBoundary position cs = true) :
    ∃ part, textBefore position cs = .ok part := by
  rw [← Text.isSome_upTo?] at boundary
  obtain ⟨part, found⟩ := Option.isSome_iff_exists.mp boundary
  exact ⟨part, by rw [textBefore, found]⟩

end DerivedTags.Snippet
