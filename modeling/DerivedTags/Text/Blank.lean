/-!
# Blank characters and trimming

Blank is the Unicode property White_Space, which is larger than the blanks
of ASCII and has neither the zero width space nor the byte order mark.
-/

namespace DerivedTags.Text

/-- A character with the property White_Space. -/
def isBlank (c : Char) : Bool :=
  let n := c.toNat
  9 ≤ n && n ≤ 13 || n == 32 || n == 133 || n == 160 || n == 5760 ||
    8192 ≤ n && n ≤ 8202 || n == 8232 || n == 8233 || n == 8239 || n == 8287 || n == 12288

/-- The text without the blanks it begins with. -/
def trimStart (cs : List Char) : List Char := cs.dropWhile isBlank

/-- The text without the blanks it ends with. -/
def trimEnd (cs : List Char) : List Char := (cs.reverse.dropWhile isBlank).reverse

/-- The text without the blanks at either end. -/
def trim (cs : List Char) : List Char := trimEnd (trimStart cs)

variable {front back cs : List Char}

/-- Blanks in front of a text are skipped with those it begins with. -/
theorem trimStart_append (blank : ∀ c ∈ front, isBlank c = true) (cs : List Char) :
    trimStart (front ++ cs) = trimStart cs :=
  List.dropWhile_append_of_pos blank

/-- A text that begins with no blank has none to skip. -/
theorem trimStart_of_head (solid : ∀ c ∈ cs.head?, isBlank c = false) : trimStart cs = cs := by
  cases cs with
  | nil => rfl
  | cons c rest => exact List.dropWhile_cons_of_neg (by simp [solid c rfl])

/-- Blanks around a text that has none at its ends are all that is trimmed. -/
theorem trim_surrounded (before : ∀ c ∈ front, isBlank c = true)
    (after : ∀ c ∈ back, isBlank c = true) (first : ∀ c ∈ cs.head?, isBlank c = false)
    (last : ∀ c ∈ cs.getLast?, isBlank c = false) : trim (front ++ cs ++ back) = cs := by
  have start : trimStart (front ++ cs ++ back) = trimStart (cs ++ back) := by
    rw [List.append_assoc, trimStart_append before]
  cases cs with
  | nil =>
    have none : trimStart (front ++ [] ++ back) = [] := by
      rw [start, ← List.append_nil ([] ++ back), List.nil_append, trimStart_append after]
      rfl
    rw [trim, none]
    rfl
  | cons c rest =>
    have whole : trimStart (front ++ c :: rest ++ back) = c :: rest ++ back := by
      rw [start, trimStart_of_head]
      exact first
    rw [trim, whole, trimEnd, List.reverse_append]
    change (trimStart (back.reverse ++ (c :: rest).reverse)).reverse = _
    rw [trimStart_append (by simpa using after), trimStart_of_head, List.reverse_reverse]
    rwa [List.head?_reverse]

/-- What is trimmed are blanks. -/
theorem exists_trim (cs : List Char) : ∃ front back, (∀ c ∈ front, isBlank c = true) ∧
    (∀ c ∈ back, isBlank c = true) ∧ cs = front ++ trim cs ++ back := by
  have start : cs.takeWhile isBlank ++ trimStart cs = cs := List.takeWhile_append_dropWhile
  have stop : trimEnd (trimStart cs) ++ ((trimStart cs).reverse.takeWhile isBlank).reverse =
      trimStart cs := by
    rw [trimEnd, ← List.reverse_append, List.takeWhile_append_dropWhile, List.reverse_reverse]
  refine ⟨cs.takeWhile isBlank, ((trimStart cs).reverse.takeWhile isBlank).reverse, ?_, ?_, ?_⟩
  · intro c mem
    exact List.all_eq_true.mp List.all_takeWhile c mem
  · intro c mem
    exact List.all_eq_true.mp List.all_takeWhile c (List.mem_reverse.mp mem)
  · rw [List.append_assoc, trim, stop, start]

end DerivedTags.Text
