import DerivedTags.Text.Search

/-!
# Byte positions in a text

A text is stored in UTF-8, where a character has one to four bytes, and searches give
byte positions. A text can be cut at a byte position only if it lies between two
characters or at an end.
-/

namespace DerivedTags.Text

/-- The number of bytes of a text. -/
def bytes : List Char → Nat
  | [] => 0
  | c :: rest => c.utf8Size + bytes rest

/-- Whether a byte position lies between two characters or at an end of the text. -/
def isBoundary : Nat → List Char → Bool
  | 0, _ => true
  | _ + 1, [] => false
  | n + 1, c :: cs => c.utf8Size ≤ n + 1 && isBoundary (n + 1 - c.utf8Size) cs

/-- The part of a text before a byte position, if the text can be cut there. -/
def upTo? : Nat → List Char → Option (List Char)
  | 0, _ => some []
  | _ + 1, [] => none
  | n + 1, c :: cs =>
    if c.utf8Size ≤ n + 1 then (upTo? (n + 1 - c.utf8Size) cs).map (c :: ·) else none

/-- The byte position of the first occurrence of a needle. -/
def find? (needle cs : List Char) : Option Nat := (cutAt needle cs).map fun parts => bytes parts.1

/-- The byte position of the first character that a test refuses, or the end of the text.
The test sees the position and the character; the text begins at the given position. -/
def endFrom (accepts : Nat → Char → Bool) : Nat → List Char → Nat
  | position, [] => position
  | position, c :: cs =>
    if accepts position c then endFrom accepts (position + c.utf8Size) cs else position

/-- Before the byte position at which a part of the text ends stands that part. -/
theorem upTo?_bytes (front back : List Char) :
    upTo? (bytes front) (front ++ back) = some front := by
  induction front with
  | nil => simp [bytes, upTo?]
  | cons c rest ih =>
    obtain ⟨n, size⟩ := Nat.exists_eq_succ_of_ne_zero (Nat.ne_of_gt c.utf8Size_pos)
    have total : bytes (c :: rest) = n + bytes rest + 1 := by
      rw [bytes, size]
      omega
    have left : n + bytes rest + 1 - c.utf8Size = bytes rest := by omega
    rw [total, List.cons_append, upTo?, if_pos (by omega), left, ih]
    rfl

/-- A text can be cut exactly at the boundaries. -/
theorem isSome_upTo? (position : Nat) (cs : List Char) :
    (upTo? position cs).isSome = isBoundary position cs := by
  induction cs generalizing position with
  | nil => cases position <;> rfl
  | cons c cs ih =>
    cases position with
    | zero => rfl
    | succ n =>
      by_cases fits : c.utf8Size ≤ n + 1
      · rw [upTo?, if_pos fits, Option.isSome_map, ih, isBoundary, decide_eq_true fits,
          Bool.true_and]
      · rw [upTo?, if_neg fits, isBoundary, decide_eq_false fits, Bool.false_and]
        rfl

/-- An occurrence begins where a part of the text ends. -/
theorem exists_of_find? {needle cs : List Char} {position : Nat}
    (h : find? needle cs = some position) :
    ∃ before after, cutAt needle cs = some (before, after) ∧ position = bytes before := by
  obtain ⟨⟨before, after⟩, found, same⟩ := Option.map_eq_some_iff.mp h
  exact ⟨before, after, found, same.symm⟩

/-- What a test accepts ends where a part of the text ends. -/
theorem exists_endFrom (accepts : Nat → Char → Bool) (start : Nat) (cs : List Char) :
    ∃ front back, cs = front ++ back ∧ endFrom accepts start cs = start + bytes front := by
  induction cs generalizing start with
  | nil => exact ⟨[], [], rfl, rfl⟩
  | cons c cs ih =>
    unfold endFrom
    split
    · obtain ⟨front, back, rfl, position⟩ := ih (start + c.utf8Size)
      exact ⟨c :: front, back, rfl, by rw [position, bytes, Nat.add_assoc]⟩
    · exact ⟨[], c :: cs, rfl, rfl⟩

end DerivedTags.Text
