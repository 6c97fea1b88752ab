import DerivedTags.Snippet.Compiled

/-!
# When the folding of constants breaks off

Folding computes remainders of literal operands. The one division it cannot
carry out is that of the least integer by minus one. An expression breaks
folding off exactly if such a remainder occurs in it, at any depth, among the
expressions that folding visits.
-/

namespace DerivedTags.Snippet.Expr

/-- The expressions directly inside an expression, from the left. -/
def operands : Expr → List Expr
  | .literal _ | .var _ => []
  | .list es | .add es | .mul es | .and es | .or es | .call _ es => es
  | .get a b | .binary _ a b | .coalesce a b | .onlyIf a b => [a, b]
  | .ifElse a b c => [a, b, c]
  | .neg a | .not a => [a]
  | .method a _ es => a :: es

/-- An expression stands somewhere in another one, itself included. -/
inductive Occurs (inner : Expr) : Expr → Prop where
  /-- An expression stands in itself. -/
  | self : Occurs inner inner
  /-- What stands in an operand stands in the whole. -/
  | inside {outer operand : Expr} (mem : operand ∈ outer.operands)
      (h : Occurs inner operand) : Occurs inner outer

/-- What stands in a part stands in the whole. -/
theorem Occurs.trans {inner part outer : Expr} (inside : Occurs inner part)
    (h : Occurs part outer) : Occurs inner outer := by
  induction h with
  | self => exact inside
  | inside mem _ ih => exact .inside mem ih

/-- What stands in an operand is smaller than the whole. -/
theorem sizeOf_lt_of_mem_operands {e operand : Expr} (mem : operand ∈ e.operands) :
    sizeOf operand < sizeOf e := by
  cases e with
  | literal v => simp [operands] at mem
  | var path => simp [operands] at mem
  | list es | add es | mul es | and es | or es | call path es =>
    have smaller := List.sizeOf_lt_of_mem mem
    simp only [list.sizeOf_spec, add.sizeOf_spec, mul.sizeOf_spec, and.sizeOf_spec,
      or.sizeOf_spec, call.sizeOf_spec]
    simp only [operands] at smaller
    omega
  | get a b | binary op a b | coalesce a b | onlyIf a b | ifElse a b c | neg a | not a =>
    simp only [operands, List.mem_cons, List.not_mem_nil, or_false] at mem
    simp only [get.sizeOf_spec, binary.sizeOf_spec, coalesce.sizeOf_spec, onlyIf.sizeOf_spec,
      ifElse.sizeOf_spec, neg.sizeOf_spec, not.sizeOf_spec]
    rcases mem with rfl | rfl | rfl <;> omega
  | method a name es =>
    simp only [operands, List.mem_cons] at mem
    simp only [method.sizeOf_spec]
    rcases mem with rfl | mem
    · omega
    · have smaller := List.sizeOf_lt_of_mem mem
      omega

/-- An expression put together again from its folded operands, with its own
constant computed. -/
def rebuild : Expr → List Expr → Except Panic Expr
  | .list _, es => .ok (.list es)
  | .get _ _, [a, b] => .ok (.get a b)
  | .add _, es => .ok (foldAdd es)
  | .mul _, es => .ok (foldMul es)
  | .binary op _ _, [a, b] => foldBinary op a b
  | .neg _, [a] => .ok (foldNeg a)
  | .not _, [a] => .ok (.not a)
  | .and _, es => .ok (.and es)
  | .or _, es => .ok (.or es)
  | .coalesce _ _, [a, b] => .ok (.coalesce a b)
  | .onlyIf _ _, [a, b] => .ok (.onlyIf a b)
  | .ifElse _ _ _, [a, b, c] => .ok (.ifElse a b c)
  | .call path _, es => .ok (.call path es)
  | .method _ name _, a :: es => .ok (.method a name es)
  | e, _ => .ok e

/-- Folding is folding of the operands, then of the whole. -/
theorem fold_eq_bind_rebuild (e : Expr) : fold e = foldAll e.operands >>= e.rebuild := by
  cases e with
  | literal v | var path => rfl
  | list es | add es | mul es | and es | or es | call path es =>
    simp only [fold, operands]
    cases foldAll es <;> rfl
  | get a b | binary op a b | coalesce a b | onlyIf a b =>
    simp only [fold, operands, foldAll]
    cases fold a <;> cases fold b <;> rfl
  | ifElse a b c =>
    simp only [fold, operands, foldAll]
    cases fold a <;> cases fold b <;> cases fold c <;> rfl
  | neg a | not a =>
    simp only [fold, operands, foldAll]
    cases fold a <;> rfl
  | method a name es =>
    simp only [fold, operands, foldAll]
    cases fold a <;> cases foldAll es <;> rfl

/-- Folding of several expressions breaks off in one of them. -/
theorem exists_mem_of_foldAll_eq_error {es : List Expr} {p : Panic}
    (h : foldAll es = .error p) : ∃ e ∈ es, fold e = .error p := by
  induction es with
  | nil => cases h
  | cons e rest ih =>
    cases he : fold e with
    | error q =>
      have same : q = p := by simpa [foldAll, he, bind, Except.bind] using h
      exact ⟨e, List.mem_cons_self, by rw [he, same]⟩
    | ok folded =>
      cases hr : foldAll rest with
      | error q =>
        have same : q = p := by simpa [foldAll, he, hr, bind, Except.bind] using h
        obtain ⟨inner, mem, broken⟩ := ih (by rw [hr, same])
        exact ⟨inner, List.mem_cons_of_mem e mem, broken⟩
      | ok others => simp [foldAll, he, hr, bind, Except.bind] at h

/-- Where one expression breaks folding off, several that hold it do too. -/
theorem foldAll_eq_error_of_mem {es : List Expr} {e : Expr} {q : Panic} (mem : e ∈ es)
    (h : fold e = .error q) : ∃ p, foldAll es = .error p := by
  induction es with
  | nil => cases mem
  | cons first rest ih =>
    cases hf : fold first with
    | error p => exact ⟨p, by simp [foldAll, hf, bind, Except.bind]⟩
    | ok folded =>
      rcases List.mem_cons.mp mem with rfl | mem
      · rw [h] at hf
        cases hf
      · obtain ⟨p, hp⟩ := ih mem
        exact ⟨p, by simp [foldAll, hf, hp, bind, Except.bind]⟩

/-- The two literals whose remainder folding cannot compute. -/
def overflowPair : List Expr := [.literal (.int Int64.minValue), .literal (.int (-1))]

/-- A remainder occurs whose operands fold to the least integer and minus one. -/
def HasOverflow (e : Expr) : Prop :=
  ∃ left right, Occurs (.binary .mod left right) e ∧ foldAll [left, right] = .ok overflowPair

/-- The remainder of integers other than zero breaks off for one pair only. -/
theorem remainder_eq_error_iff {a b : Int64} (hb : (b == 0) = false) {p : Panic} :
    Whole.remainder a b = .error p ↔
      p = .remainderOverflow ∧ a = Int64.minValue ∧ b = -1 := by
  simp only [Whole.remainder, hb, Bool.false_eq_true, if_false, Whole.quotientFits,
    Bool.not_not]
  by_cases pair : a = Int64.minValue ∧ b = -1
  · obtain ⟨rfl, rfl⟩ := pair
    simp [eq_comm]
  · simp [pair]

/-- A rebuilt expression breaks off only as an overflowing remainder. -/
theorem rebuild_eq_error_iff {e : Expr} {es : List Expr} {p : Panic} :
    e.rebuild es = .error p ↔
      p = .remainderOverflow ∧ (∃ left right, e = .binary .mod left right) ∧
        es = overflowPair := by
  constructor
  · intro h
    unfold rebuild at h
    split at h <;> try cases h
    unfold foldBinary at h
    split at h
    · split at h
      · cases h
      · rename_i a b hb
        cases hr : Whole.remainder a b with
        | ok n => simp [hr, Except.map] at h
        | error q =>
          have same : q = p := by simpa [hr, Except.map] using h
          subst same
          obtain ⟨overflow, rfl, rfl⟩ := (remainder_eq_error_iff (by simpa using hb)).mp hr
          exact ⟨overflow, ⟨_, _, rfl⟩, rfl⟩
    · cases h
  · rintro ⟨rfl, ⟨left, right, rfl⟩, rfl⟩
    rfl

/-- What breaks folding off is an overflowing remainder. The expression gets
smaller toward the operand that breaks off. -/
theorem hasOverflow_of_fold_eq_error {e : Expr} {p : Panic} (h : fold e = .error p) :
    p = .remainderOverflow ∧ HasOverflow e := by
  rw [fold_eq_bind_rebuild] at h
  cases hf : foldAll e.operands with
  | error q =>
    have same : q = p := by simpa [hf, bind, Except.bind] using h
    subst same
    obtain ⟨operand, mem, broken⟩ := exists_mem_of_foldAll_eq_error hf
    have smaller := sizeOf_lt_of_mem_operands mem
    obtain ⟨overflow, left, right, occurs, pair⟩ := hasOverflow_of_fold_eq_error broken
    exact ⟨overflow, left, right, .inside mem occurs, pair⟩
  | ok es =>
    have broken : e.rebuild es = .error p := by simpa [hf, bind, Except.bind] using h
    obtain ⟨overflow, ⟨left, right, rfl⟩, rfl⟩ := rebuild_eq_error_iff.mp broken
    exact ⟨overflow, left, right, .self, hf⟩
termination_by sizeOf e

/-- An overflowing remainder breaks folding off wherever it stands. -/
theorem fold_eq_error_of_occurs {left right e : Expr} (h : Occurs (.binary .mod left right) e)
    (pair : foldAll [left, right] = .ok overflowPair) : ∃ p, fold e = .error p := by
  induction h with
  | self =>
    refine ⟨.remainderOverflow, ?_⟩
    rw [fold_eq_bind_rebuild]
    simp only [operands, pair]
    rfl
  | inside mem _ ih =>
    obtain ⟨q, broken⟩ := ih
    obtain ⟨p, hp⟩ := foldAll_eq_error_of_mem mem broken
    refine ⟨p, ?_⟩
    rw [fold_eq_bind_rebuild, hp]
    rfl

/-- Folding breaks off exactly at an overflowing remainder, always with the
same panic. -/
theorem fold_eq_error_iff (e : Expr) (p : Panic) :
    fold e = .error p ↔ p = .remainderOverflow ∧ HasOverflow e := by
  constructor
  · exact hasOverflow_of_fold_eq_error
  · rintro ⟨rfl, left, right, occurs, pair⟩
    obtain ⟨q, broken⟩ := fold_eq_error_of_occurs occurs pair
    rw [broken, (hasOverflow_of_fold_eq_error broken).1]

end DerivedTags.Snippet.Expr

namespace DerivedTags.Snippet

/-- A text that can be read, but whose constants cannot be folded. -/
def Overflows (source : String) : Prop :=
  ∃ tree, read source = .ok tree ∧ (Expr.ofTree tree).HasOverflow

/-- The compilation of a text breaks off exactly at an overflowing remainder. -/
theorem Compiled.ofText_eq_error_iff (source : String) (p : Panic) :
    Compiled.ofText source = .error p ↔ p = .remainderOverflow ∧ Overflows source := by
  unfold Compiled.ofText Overflows
  cases hr : read source with
  | error cause => simp
  | ok tree =>
    have iff := Expr.fold_eq_error_iff (Expr.ofTree tree) p
    simp only [Expr.compile, Except.ok.injEq, exists_eq_left']
    rw [← iff]
    cases Expr.fold (Expr.ofTree tree) <;> simp [Except.map]

end DerivedTags.Snippet
