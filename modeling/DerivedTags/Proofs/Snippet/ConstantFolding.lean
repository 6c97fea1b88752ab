import DerivedTags.Proofs.Snippet.Congruence
import DerivedTags.Proofs.Snippet.FoldedSums
import DerivedTags.Proofs.Snippet.SmallSums

/-!
# Folding constants keeps the meaning

A compiled snippet evaluates like the expression that was read, whatever the scope
and the functions do. The induction goes over the expression that was read; folded
operands evaluate like the operands, so that the expression put together from them
does, and what is computed from them evaluates like that.
-/

namespace DerivedTags.Snippet

namespace Expr

/-- What folding makes of sums is no path. -/
theorem foldAdd_ne_var (es : List Expr) (p : Path) : foldAdd es ≠ .var p := by
  unfold foldAdd
  repeat' split
  all_goals exact Expr.noConfusion

/-- What folding makes of products is no path. -/
theorem foldMul_ne_var (es : List Expr) (p : Path) : foldMul es ≠ .var p := by
  unfold foldMul
  split
  all_goals exact Expr.noConfusion

/-- What folding makes of negatives is no path. -/
theorem foldNeg_ne_var (e : Expr) (p : Path) : foldNeg e ≠ .var p := by
  unfold foldNeg
  repeat' split
  all_goals exact Expr.noConfusion

/-- What folding makes of an operator with two operands is no path. -/
theorem foldBinary_ne_var {op : BinaryOp} {left right : Expr} (p : Path) :
    foldBinary op left right ≠ .ok (.var p) := by
  intro h
  unfold foldBinary at h
  split at h
  · unfold Whole.remainder at h
    repeat' split at h
    all_goals cases h
  · cases h

/-- Only a path is put together again as a path. -/
theorem eq_var_of_rebuild {e : Expr} {es : List Expr} {p : Path}
    (h : e.rebuild es = .ok (.var p)) : e = .var p := by
  unfold rebuild at h
  split at h
  all_goals first
    | exact absurd (Except.ok.inj h) (foldAdd_ne_var _ p)
    | exact absurd (Except.ok.inj h) (foldMul_ne_var _ p)
    | exact absurd (Except.ok.inj h) (foldNeg_ne_var _ p)
    | exact absurd h (foldBinary_ne_var p)
    | exact Except.ok.inj h
    | cases h

/-- Folding keeps which expressions are paths. -/
theorem eq_var_iff_of_fold {e folded : Expr} (h : fold e = .ok folded) (p : Path) :
    folded = .var p ↔ e = .var p := by
  constructor
  · rintro rfl
    rw [fold_eq_bind_rebuild] at h
    obtain ⟨es, -, rebuilt⟩ := bind_eq_ok_iff.mp h
    exact eq_var_of_rebuild rebuilt
  · rintro rfl
    cases h
    rfl

variable {m : Type → Type} [Monad m] {scope : Scope m} {functions : FunctionTable}

/-- Several expressions that each evaluate like before folding do so together. -/
theorem evals_of_foldAll {es folded : List Expr} (h : foldAll es = .ok folded)
    (each : ∀ e ∈ es, ∀ e', fold e = .ok e' →
      e'.eval scope functions = e.eval scope functions) :
    evals scope functions folded = evals scope functions es := by
  induction es generalizing folded with
  | nil =>
    cases h
    rfl
  | cons e rest ih =>
    rw [foldAll] at h
    obtain ⟨e', first, h⟩ := bind_eq_ok_iff.mp h
    obtain ⟨others, onward, h⟩ := bind_eq_ok_iff.mp h
    cases h
    have same := ih onward fun e mem => each e (List.mem_cons_of_mem _ mem)
    rw [evals, evals, List.map_cons, List.map_cons, each e List.mem_cons_self e' first]
    exact congrArg _ same

/-- Folding keeps the meaning of an expression with small sums. -/
theorem eval_fold [LawfulMonad m] {e folded : Expr} (small : SmallSums e)
    (h : fold e = .ok folded) :
    folded.eval scope functions = e.eval scope functions := by
  have inside : ∀ o ∈ e.operands, ∀ o', fold o = .ok o' →
      o'.eval scope functions = o.eval scope functions :=
    fun o mem o' h => eval_fold (small.of_mem mem) h
  cases e with
  | literal v | var path =>
    cases h
    rfl
  | list args =>
    rw [fold] at h
    obtain ⟨args', each, h⟩ := bind_eq_ok_iff.mp h
    cases h
    rw [eval_list, eval_list, evalAll_congr (evals_of_foldAll each inside)]
  | call path args =>
    rw [fold] at h
    obtain ⟨args', each, h⟩ := bind_eq_ok_iff.mp h
    cases h
    rw [eval_call, eval_call, evalAll_congr (evals_of_foldAll each inside)]
  | and args =>
    rw [fold] at h
    obtain ⟨args', each, h⟩ := bind_eq_ok_iff.mp h
    cases h
    rw [eval_and, eval_and, evalAnd_congr (evals_of_foldAll each inside)]
  | or args =>
    rw [fold] at h
    obtain ⟨args', each, h⟩ := bind_eq_ok_iff.mp h
    cases h
    rw [eval_or, eval_or, evalOr_congr (evals_of_foldAll each inside)]
  | add args =>
    rw [fold] at h
    obtain ⟨args', each, h⟩ := bind_eq_ok_iff.mp h
    cases h
    have same := evals_of_foldAll each inside
    have few : args'.length ≤ 2 := by
      rw [length_eq_of_evals_eq same]
      exact small args .self
    rw [eval_foldAdd_of_roundsAlike (roundsAlike_of_few few), eval_add_congr same]
  | mul args =>
    rw [fold] at h
    obtain ⟨args', each, h⟩ := bind_eq_ok_iff.mp h
    cases h
    rw [eval_foldMul, eval_mul_congr (evals_of_foldAll each inside)]
  | neg a =>
    rw [fold] at h
    obtain ⟨a', first, h⟩ := bind_eq_ok_iff.mp h
    cases h
    have same := inside a (by simp [operands]) a' first
    rw [eval_foldNeg, eval_neg, eval_neg, same]
  | not a =>
    rw [fold] at h
    obtain ⟨a', first, h⟩ := bind_eq_ok_iff.mp h
    cases h
    have same := inside a (by simp [operands]) a' first
    rw [eval_not, eval_not, same]
  | get a b =>
    rw [fold] at h
    obtain ⟨a', first, h⟩ := bind_eq_ok_iff.mp h
    obtain ⟨b', second, h⟩ := bind_eq_ok_iff.mp h
    cases h
    have same := inside a (by simp [operands]) a' first
    have sameKey := inside b (by simp [operands]) b' second
    exact eval_get_congr same sameKey (eq_var_iff_of_fold first)
  | binary op a b =>
    rw [fold] at h
    obtain ⟨a', first, h⟩ := bind_eq_ok_iff.mp h
    obtain ⟨b', second, h⟩ := bind_eq_ok_iff.mp h
    have same := inside a (by simp [operands]) a' first
    have same' := inside b (by simp [operands]) b' second
    rw [eval_foldBinary h, eval_binary, eval_binary, same, same']
  | coalesce a b =>
    rw [fold] at h
    obtain ⟨a', first, h⟩ := bind_eq_ok_iff.mp h
    obtain ⟨b', second, h⟩ := bind_eq_ok_iff.mp h
    cases h
    have same := inside a (by simp [operands]) a' first
    have same' := inside b (by simp [operands]) b' second
    rw [eval_coalesce, eval_coalesce, same, same']
  | onlyIf a b =>
    rw [fold] at h
    obtain ⟨a', first, h⟩ := bind_eq_ok_iff.mp h
    obtain ⟨b', second, h⟩ := bind_eq_ok_iff.mp h
    cases h
    have same := inside a (by simp [operands]) a' first
    have same' := inside b (by simp [operands]) b' second
    rw [eval_onlyIf, eval_onlyIf, same, same']
  | ifElse a b c =>
    rw [fold] at h
    obtain ⟨a', first, h⟩ := bind_eq_ok_iff.mp h
    obtain ⟨b', second, h⟩ := bind_eq_ok_iff.mp h
    obtain ⟨c', third, h⟩ := bind_eq_ok_iff.mp h
    cases h
    have same := inside a (by simp [operands]) a' first
    have same' := inside b (by simp [operands]) b' second
    have same'' := inside c (by simp [operands]) c' third
    rw [eval_ifElse, eval_ifElse, same, same', same'']
  | method a name args =>
    rw [fold] at h
    obtain ⟨a', first, h⟩ := bind_eq_ok_iff.mp h
    obtain ⟨args', each, h⟩ := bind_eq_ok_iff.mp h
    cases h
    have same := inside a (by simp [operands]) a' first
    have others := evals_of_foldAll each fun o mem => inside o (List.mem_cons_of_mem a mem)
    rw [eval_method, eval_method, same, evalAll_congr others]
termination_by sizeOf e
decreasing_by exact sizeOf_lt_of_mem_operands mem

end Expr

namespace Compiled

variable {m : Type → Type} [Monad m] {scope : Scope m} {functions : FunctionTable}

/-- Snippets evaluate alike where their expressions do. -/
theorem evaluate_congr {a b : Compiled}
    (same : a.expr.eval scope functions = b.expr.eval scope functions) :
    a.evaluate functions scope = b.evaluate functions scope := by
  rw [evaluate, evaluate, same]

/-- A snippet gives the value of its expression. -/
theorem evaluate_of_eval [LawfulMonad m] {snippet : Compiled} {v : Value}
    (h : snippet.expr.eval scope functions = pure v) :
    snippet.evaluate functions scope = pure (.ok v) := by
  rw [evaluate, h]
  exact pure_bind _ _

end Compiled

/-- A compiled text evaluates, in every scope and with every function table, like the
expression of the tree that was read. -/
theorem Compiled.eval_ofText {source : String} {c : Compiled}
    (h : Compiled.ofText source = .ok (.ok c)) :
    ∃ tree, read source = .ok tree ∧
      ∀ {m : Type → Type} [Monad m] [LawfulMonad m] (scope : Scope m)
        (functions : FunctionTable),
        c.expr.eval scope functions = (Expr.ofTree tree).eval scope functions := by
  unfold Compiled.ofText at h
  split at h
  · cases h
  · rename_i tree found
    obtain ⟨expr, folded, same⟩ := Expr.exists_of_map_eq_ok h
    cases same
    exact ⟨tree, found, fun scope functions =>
      Expr.eval_fold (smallSums_of_read found) folded⟩

/-- The sum of two numbers is computed while compiling, that with a name is not. -/
theorem Compiled.eval_ofText_sum : ∃ c tree,
    Compiled.ofText "1 + 2 + x" = .ok (.ok c) ∧ read "1 + 2 + x" = .ok tree ∧
      c.expr.eval (Bindings.scope ⟨[("x", .int 4)]⟩) FunctionTable.standard =
        (Expr.ofTree tree).eval (Bindings.scope ⟨[("x", .int 4)]⟩) FunctionTable.standard := by
  have compiles : (match Compiled.ofText "1 + 2 + x" with
      | .ok (.ok _) => true
      | _ => false) = true := by decide +kernel
  split at compiles
  · rename_i c h
    obtain ⟨tree, found, same⟩ := Compiled.eval_ofText h
    exact ⟨c, tree, h, found, same _ _⟩
  · cases compiles

end DerivedTags.Snippet
