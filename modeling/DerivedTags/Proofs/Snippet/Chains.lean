import DerivedTags.Proofs.Snippet.Levels

/-!
# Operators with many operands and chains of pairs

A sum, a product, a conjunction and a disjunction take any number of operands and go
through them from the left, like the chain of pairs in which each operator takes the
result of the one before. The chain evaluates like the operator before folding, whatever
the operands are. So do the folded forms, except for sums that folding computes: those
agree with their chain where they round alike.
-/

namespace DerivedTags.Snippet

/-- The operators that take any number of operands. -/
inductive Joiner where
  /-- Sum or concatenation. -/
  | sum
  /-- Product. -/
  | product
  /-- Conjunction. -/
  | both
  /-- Disjunction. -/
  | either
  deriving DecidableEq, Repr

namespace Joiner

/-- The name of an operator in a tree. -/
def name : Joiner → String
  | .sum => "+"
  | .product => "*"
  | .both => "&&"
  | .either => "||"

/-- The expression of an operator over operands. -/
def expr : Joiner → List Expr → Expr
  | .sum, es => .add es
  | .product, es => .mul es
  | .both, es => .and es
  | .either, es => .or es

/-- What folding makes of an operator over folded operands. -/
def folded : Joiner → List Expr → Expr
  | .sum, es => Expr.foldAdd es
  | .product, es => Expr.foldMul es
  | .both, es => .and es
  | .either, es => .or es

/-- The tree of an operator over operands. -/
def tree (o : Joiner) (operands : List Json) : Json := .arr (.str o.name :: operands)

/-- The chain of pairs over operands, nested to the left. -/
def chain (o : Joiner) (first : Json) (rest : List Json) : Json :=
  rest.foldl (fun left right => o.tree [left, right]) first

/-- The expression of the tree of an operator. -/
theorem ofTree_tree (o : Joiner) (operands : List Json) :
    Expr.ofTree (o.tree operands) = o.expr (Expr.ofTrees operands) := by
  cases o <;> rfl

/-- Trees are compiled one by one. -/
theorem foldAll_cons {t : Json} {rest : List Json} {es : List Expr} :
    Expr.foldAll (Expr.ofTrees (t :: rest)) = .ok es ↔
      ∃ e es', Expr.compile t = .ok e ∧ Expr.foldAll (Expr.ofTrees rest) = .ok es' ∧
        es = e :: es' := by
  rw [Expr.ofTrees, Expr.foldAll, Expr.compile]
  simp only [bind_eq_ok_iff, Except.ok.injEq, eq_comm (a := es)]
  simp only [exists_and_left]

/-- An operator is folded over its folded operands. -/
theorem fold_expr {o : Joiner} {es : List Expr} {e : Expr}
    (h : Expr.fold (o.expr es) = .ok e) :
    ∃ es', Expr.foldAll es = .ok es' ∧ e = o.folded es' := by
  cases o
  all_goals
    simp only [expr, Expr.fold] at h
    obtain ⟨es', each, h⟩ := bind_eq_ok_iff.mp h
    cases h
    exact ⟨es', each, rfl⟩

/-- The tree of an operator compiles by way of its operands. -/
theorem compile_tree {o : Joiner} {operands : List Json} {e : Expr}
    (h : Expr.compile (o.tree operands) = .ok e) :
    ∃ es, Expr.foldAll (Expr.ofTrees operands) = .ok es ∧ e = o.folded es := by
  rw [Expr.compile, ofTree_tree] at h
  exact fold_expr h

section Evaluation

variable {m : Type → Type} [Monad m] {scope : Scope m} {functions : FunctionTable}

/-- An operator evaluates by the evaluations of its operands. -/
theorem eval_expr_congr (o : Joiner) {es es' : List Expr}
    (same : Expr.evals scope functions es' = Expr.evals scope functions es) :
    (o.expr es').eval scope functions = (o.expr es).eval scope functions := by
  cases o with
  | sum => exact Expr.eval_add_congr same
  | product => exact Expr.eval_mul_congr same
  | both => exact Expr.evalAnd_congr same _
  | either => exact Expr.evalOr_congr same _

variable [LawfulMonad m]

/-- An operator over one operand evaluates like it. -/
theorem eval_expr_single (o : Joiner) (e : Expr) :
    (o.expr [e]).eval scope functions = e.eval scope functions := by
  have alike (v : Value) : (if v.countsAsTrue then pure v else pure v : ExceptT Stop m Value) =
      pure v := ite_self _
  cases o with
  | sum | product => exact bind_pure _
  | both | either => exact (congrArg _ (funext alike)).trans (bind_pure _)

/-- An operator over two operands may come first. -/
theorem eval_expr_grouped (o : Joiner) (l x : Expr) (es : List Expr) :
    (o.expr (o.expr [l, x] :: es)).eval scope functions =
      (o.expr (l :: x :: es)).eval scope functions := by
  cases o with
  | sum =>
    simp only [expr, Expr.eval_add_cons, bind_assoc, evalSum, pure_bind]
  | product =>
    simp only [expr, Expr.eval_mul_cons, bind_assoc, evalProduct, pure_bind]
  | both =>
    simp only [expr, Expr.eval_and, evalAnd, bind_assoc]
    refine congrArg _ (funext fun v => ?_)
    by_cases holds : v.countsAsTrue
    · simp only [holds, if_true, bind_assoc]
      refine congrArg _ (funext fun w => ?_)
      by_cases next : w.countsAsTrue <;> simp [next]
    · simp [holds]
  | either =>
    simp only [expr, Expr.eval_or, evalOr, bind_assoc]
    refine congrArg _ (funext fun v => ?_)
    by_cases holds : v.countsAsTrue
    · simp [holds]
    · simp only [holds, Bool.false_eq_true, if_false, bind_assoc]
      refine congrArg _ (funext fun w => ?_)
      by_cases next : w.countsAsTrue <;> simp [next]

/-- What folding makes of an operator evaluates like it, sums that round differently
apart. -/
theorem eval_folded {o : Joiner} {es : List Expr} (alike : o = .sum → Expr.RoundsAlike es) :
    (o.folded es).eval scope functions = (o.expr es).eval scope functions := by
  cases o with
  | sum => exact Expr.eval_foldAdd_of_roundsAlike (alike rfl)
  | product => exact Expr.eval_foldMul es
  | both | either => rfl

/-- A folded chain evaluates like the operator over the folded operands. -/
theorem eval_chain {o : Joiner} {left : Json} {rest : List Json} {e : Expr}
    (h : Expr.compile (o.chain left rest) = .ok e) :
    ∃ es, Expr.foldAll (Expr.ofTrees (left :: rest)) = .ok es ∧
      e.eval scope functions = (o.expr es).eval scope functions := by
  induction rest generalizing left with
  | nil => exact ⟨[e], foldAll_cons.mpr ⟨e, [], h, rfl, rfl⟩, (eval_expr_single o e).symm⟩
  | cons right rest ih =>
    obtain ⟨_, each, same⟩ := ih h
    obtain ⟨_, es, compiled, others, rfl⟩ := foldAll_cons.mp each
    obtain ⟨_, pair, rfl⟩ := compile_tree compiled
    obtain ⟨l, _, first, single, rfl⟩ := foldAll_cons.mp pair
    obtain ⟨x, _, second, none, rfl⟩ := foldAll_cons.mp single
    cases none
    refine ⟨l :: x :: es, foldAll_cons.mpr ⟨l, x :: es, first,
      foldAll_cons.mpr ⟨x, es, second, others, rfl⟩, rfl⟩, same.trans ?_⟩
    have two : (o.folded [l, x]).eval scope functions = (o.expr [l, x]).eval scope functions :=
      eval_folded fun _ => Expr.roundsAlike_of_few (Nat.le_refl 2)
    have operands : Expr.evals scope functions (o.folded [l, x] :: es) =
        Expr.evals scope functions (o.expr [l, x] :: es) :=
      congrArg (· :: Expr.evals scope functions es) two
    exact (eval_expr_congr o operands).trans (eval_expr_grouped o l x es)

end Evaluation

end Joiner

namespace Compiled

/-- An operator over two operands or more and the chain of pairs over them, both compiled,
evaluate alike under every scope and function table, unless the operator is a sum: there
they do if and only if the compiled operands round alike. -/
theorem evaluate_eq_chain_iff {o : Joiner} {first second : Json} {rest : List Json}
    {whole nested : Compiled}
    (compiled : Compiled.ofTree (o.tree (first :: second :: rest)) = .ok (.ok whole))
    (paired : Compiled.ofTree (o.chain first (second :: rest)) = .ok (.ok nested)) :
    ∃ es, Expr.foldAll (Expr.ofTrees (first :: second :: rest)) = .ok es ∧
      ((∀ {m : Type → Type} [Monad m] [LawfulMonad m] (scope : Scope m)
          (functions : FunctionTable),
          whole.evaluate functions scope = nested.evaluate functions scope) ↔
        (o = .sum → Expr.RoundsAlike es)) := by
  obtain ⟨es, each, joined⟩ := Joiner.compile_tree (exists_of_ofTree compiled).2
  have chained {m : Type → Type} [Monad m] [LawfulMonad m] (scope : Scope m)
      (functions : FunctionTable) :
      nested.expr.eval scope functions = (o.expr es).eval scope functions := by
    have chain : ∃ es', Expr.foldAll (Expr.ofTrees (first :: second :: rest)) = .ok es' ∧
        nested.expr.eval scope functions = (o.expr es').eval scope functions :=
      Joiner.eval_chain (exists_of_ofTree paired).2
    obtain ⟨es', each', same⟩ := chain
    cases each.symm.trans each'
    exact same
  refine ⟨es, each, fun alike => ?_, fun alike m _ _ scope functions => ?_⟩
  · rintro rfl n others ns total xs rfl leaves
    let scope := Bindings.scope ⟨[]⟩
    have rounded : whole.expr.eval scope .standard = _ :=
      congrArg (Expr.eval scope .standard) (joined.trans leaves.foldAdd)
    have added := (chained scope .standard).trans leaves.eval_add
    have same := alike scope .standard
    rw [evaluate_of_eval rounded, evaluate_of_eval added] at same
    exact Value.float.inj (Except.ok.inj same)
  · refine evaluate_congr ?_
    rw [chained, joined, Joiner.eval_folded alike]

/-- A sum with a name among its operands rounds alike, as nothing is folded into it. -/
theorem evaluate_eq_chain_names : ∃ whole nested,
    Compiled.ofTree (Joiner.sum.tree [.num (.int 1), .num (.int 2), .arr [.str "var", .str "x"]]) =
        .ok (.ok whole) ∧
      Compiled.ofTree
          (Joiner.sum.chain (.num (.int 1)) [.num (.int 2), .arr [.str "var", .str "x"]]) =
        .ok (.ok nested) ∧
      ∀ functions : FunctionTable,
        whole.evaluate functions (Bindings.scope ⟨[("x", .int 4)]⟩) =
          nested.evaluate functions (Bindings.scope ⟨[("x", .int 4)]⟩) := by
  have whole : Compiled.ofTree
      (Joiner.sum.tree [.num (.int 1), .num (.int 2), .arr [.str "var", .str "x"]]) =
        .ok (.ok ⟨"[\"+\",1,2,[\"var\",\"x\"]]",
          .add [.literal (.int 1), .literal (.int 2), .var ["x"]]⟩) := rfl
  have nested : Compiled.ofTree
      (Joiner.sum.chain (.num (.int 1)) [.num (.int 2), .arr [.str "var", .str "x"]]) =
        .ok (.ok ⟨"[\"+\",[\"+\",1,2],[\"var\",\"x\"]]",
          .add [.literal (.int 3), .var ["x"]]⟩) := rfl
  refine ⟨_, _, whole, nested, ?_⟩
  obtain ⟨es, each, iff⟩ := evaluate_eq_chain_iff whole nested
  have operands : es = [.literal (.int 1), .literal (.int 2), .var ["x"]] :=
    (Except.ok.inj each).symm
  refine iff.mpr (fun _ => ?_) _
  rintro n rest ns total xs rfl leaves
  have folded := leaves.foldAdd
  rw [operands] at folded
  cases folded

/-- The whole sum of an integer that is no double, of one and of a half rounds the integer.
The chain of pairs adds one to it before it rounds, which gives another double. -/
theorem evaluate_ne_chain : ∃ whole nested,
    Compiled.ofTree (Joiner.sum.tree
        [.num (.int 9007199254740993), .num (.int 1), .num (.float 0.5)]) = .ok (.ok whole) ∧
      Compiled.ofTree (Joiner.sum.chain
        (.num (.int 9007199254740993)) [.num (.int 1), .num (.float 0.5)]) = .ok (.ok nested) ∧
      ∀ (b : Bindings) (functions : FunctionTable),
        whole.evaluate functions b.scope = .ok (.float 9007199254740992.0) ∧
          nested.evaluate functions b.scope = .ok (.float 9007199254740994.0) ∧
          whole.evaluate functions b.scope ≠ nested.evaluate functions b.scope := by
  have differ : (9007199254740992.0 : Float) ≠ 9007199254740994.0 := by decide +kernel
  refine ⟨⟨_, .literal (.float 9007199254740992.0)⟩, ⟨_, .literal (.float 9007199254740994.0)⟩,
    rfl, rfl, fun b functions => ⟨rfl, rfl, fun same => ?_⟩⟩
  exact differ (Value.float.inj (Except.ok.inj same))

end Compiled

end DerivedTags.Snippet
