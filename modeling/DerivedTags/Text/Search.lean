/-!
# Finding a text in a text

Occurrences are looked for from the left. The empty text occurs at the
start of every text.
-/

namespace DerivedTags.Text

/-- What stands before and after the first occurrence of `needle`. -/
def cutAt (needle : List Char) : List Char → Option (List Char × List Char)
  | [] => if needle.isEmpty then some ([], []) else none
  | c :: cs =>
    if needle.isPrefixOf (c :: cs) then some ([], (c :: cs).drop needle.length)
    else (cutAt needle cs).map fun parts => (c :: parts.1, parts.2)

/-- A first occurrence splits the text around the needle. -/
theorem eq_of_cutAt {needle cs before after : List Char}
    (h : cutAt needle cs = some (before, after)) : cs = before ++ needle ++ after := by
  induction cs generalizing before with
  | nil =>
    simp only [cutAt] at h
    split at h
    · rename_i empty
      simp only [Option.some.injEq, Prod.mk.injEq] at h
      simp [← h.1, ← h.2, List.isEmpty_iff.mp empty]
    · simp at h
  | cons c cs ih =>
    simp only [cutAt] at h
    split at h
    · rename_i found
      simp only [Option.some.injEq, Prod.mk.injEq] at h
      obtain ⟨rest, eq⟩ := List.isPrefixOf_iff_prefix.mp found
      rw [← h.1, ← h.2, ← eq]
      simp
    · simp only [Option.map_eq_some_iff, Prod.mk.injEq] at h
      obtain ⟨⟨front, back⟩, found, rfl, rfl⟩ := h
      simp [ih found]

/-- No occurrence begins before the first one. -/
theorem length_le_of_cutAt {needle cs before after front back : List Char}
    (h : cutAt needle cs = some (before, after)) (other : cs = front ++ needle ++ back) :
    before.length ≤ front.length := by
  induction cs generalizing before front with
  | nil =>
    have empty : before ++ needle ++ after = [] := (eq_of_cutAt h).symm
    simp only [List.append_eq_nil_iff] at empty
    simp [empty.1.1]
  | cons c cs ih =>
    simp only [cutAt] at h
    split at h
    · simp only [Option.some.injEq, Prod.mk.injEq] at h
      simp [← h.1]
    · rename_i later
      simp only [Option.map_eq_some_iff, Prod.mk.injEq] at h
      obtain ⟨⟨rest, _⟩, found, rfl, rfl⟩ := h
      cases front with
      | nil =>
        refine absurd (List.isPrefixOf_iff_prefix.mpr ⟨back, ?_⟩) later
        simpa using other.symm
      | cons d front =>
        have behind : cs = front ++ needle ++ back := by simpa using (List.cons.inj other).2
        simpa using ih found behind

/-- Nothing follows the first occurrence only if nothing follows any occurrence. -/
theorem eq_nil_iff_of_cutAt {needle cs before after : List Char}
    (h : cutAt needle cs = some (before, after)) :
    after = [] ↔ ∀ front back, cs = front ++ needle ++ back → back = [] := by
  refine ⟨fun last front back other => ?_, fun all => all before after (eq_of_cutAt h)⟩
  have first := length_le_of_cutAt h other
  have lengths := congrArg List.length ((eq_of_cutAt h).symm.trans other)
  simp only [last, List.length_append, List.length_nil] at lengths
  exact List.eq_nil_of_length_eq_zero (by omega)

/-- Whether the needle occurs. -/
def occurs (needle cs : List Char) : Bool := (cutAt needle cs).isSome

/-- The text with the first occurrence of `needle` replaced. -/
def replaceFirst (needle replacement cs : List Char) : List Char :=
  match cutAt needle cs with
  | some (before, after) => before ++ replacement ++ after
  | none => cs

/-- Put a character in front of the first part. -/
def extendFirst (c : Char) : List (List Char) → List (List Char)
  | part :: parts => (c :: part) :: parts
  | [] => [[c]]

/-- The parts of a text between occurrences of a separator, with the number
of characters of an occurrence that are still to be passed over. -/
def splitFrom (separator : List Char) : Nat → List Char → List (List Char)
  | _, [] => [[]]
  | passing + 1, _ :: cs => splitFrom separator passing cs
  | 0, c :: cs =>
    if separator.isPrefixOf (c :: cs) then
      [] :: splitFrom separator (separator.length - 1) cs
    else extendFirst c (splitFrom separator 0 cs)

/-- The parts of a text between the occurrences of a separator that is not
empty. Occurrences do not overlap. -/
def splitOn (separator cs : List Char) : List (List Char) := splitFrom separator 0 cs

/-- The parts joined with a separator between neighbours. -/
def joinWith (separator : List Char) : List (List Char) → List Char
  | [] => []
  | [part] => part
  | part :: next :: parts => part ++ separator ++ joinWith separator (next :: parts)

end DerivedTags.Text
