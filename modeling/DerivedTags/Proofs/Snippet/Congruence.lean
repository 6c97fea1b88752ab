import DerivedTags.Snippet.Eval

/-!
# Evaluation by the evaluations of the operands

What an expression evaluates to depends on its operands through what these evaluate
to, with one exception: a member of a path is read from the scope in one go, so that
it matters as well whether an expression is a path.
-/

namespace DerivedTags.Snippet.Expr

variable {m : Type → Type} [Monad m] {scope : Scope m} {functions : FunctionTable}

section Equations

variable (a b c e : Expr) (es : List Expr)

/-- A literal evaluates to its value. -/
theorem eval_literal (v : Value) :
    (Expr.literal v).eval scope functions = (pure v : ExceptT Stop m Value) := rfl

/-- A list evaluates to the list of the values. -/
theorem eval_list : (Expr.list es).eval scope functions =
    evalAll scope functions es >>= fun values => pure (.list values) := rfl

/-- A sum starts from the value of its first operand. -/
theorem eval_add_cons : (Expr.add (e :: es)).eval scope functions =
    e.eval scope functions >>= fun v => evalSum scope functions v es := rfl

/-- A product starts from the value of its first operand. -/
theorem eval_mul_cons : (Expr.mul (e :: es)).eval scope functions =
    e.eval scope functions >>= fun v => evalProduct scope functions v es := rfl

/-- A sum goes on with the next operand. -/
theorem evalSum_cons (total : Value) : evalSum scope functions total (e :: es) =
    e.eval scope functions >>= fun v => evalSum scope functions (addValues total v) es := rfl

/-- A product goes on with the next operand. -/
theorem evalProduct_cons (total : Value) : evalProduct scope functions total (e :: es) =
    e.eval scope functions >>= fun v => evalProduct scope functions (mulValues total v) es := rfl

/-- An operator is applied to the values of both operands. -/
theorem eval_binary (op : BinaryOp) : (Expr.binary op a b).eval scope functions =
    a.eval scope functions >>= fun v =>
      b.eval scope functions >>= fun w => settled (op.apply v w) := rfl

/-- A negative evaluates to that of the value. -/
theorem eval_neg : (Expr.neg a).eval scope functions =
    a.eval scope functions >>= fun v => pure (negValue v) := rfl

/-- A negation evaluates to the opposite truth value. -/
theorem eval_not : (Expr.not a).eval scope functions =
    a.eval scope functions >>= fun v => pure (.bool (!v.countsAsTrue)) := rfl

/-- A conjunction starts from true. -/
theorem eval_and :
    (Expr.and es).eval scope functions = evalAnd scope functions (.bool true) es := rfl

/-- A disjunction starts from false. -/
theorem eval_or :
    (Expr.or es).eval scope functions = evalOr scope functions (.bool false) es := rfl

/-- A replacement is evaluated where the value is missing. -/
theorem eval_coalesce : (Expr.coalesce a b).eval scope functions =
    a.eval scope functions >>= fun v =>
      if v.isMissing then b.eval scope functions else pure v := rfl

/-- A value under a condition is evaluated where the condition holds. -/
theorem eval_onlyIf : (Expr.onlyIf a b).eval scope functions =
    a.eval scope functions >>= fun v =>
      if v.countsAsTrue then b.eval scope functions else pure .undefined := rfl

/-- One of two values is evaluated, by the condition. -/
theorem eval_ifElse : (Expr.ifElse a b c).eval scope functions =
    a.eval scope functions >>= fun v =>
      if v.countsAsTrue then b.eval scope functions else c.eval scope functions := rfl

/-- A call is of the values of the arguments. -/
theorem eval_call (path : Path) : (Expr.call path es).eval scope functions =
    evalAll scope functions es >>= invoke scope functions path := rfl

/-- A method is of the value of its receiver and those of the arguments. -/
theorem eval_method (name : String) : (Expr.method a name es).eval scope functions =
    a.eval scope functions >>= fun v =>
      evalAll scope functions es >>= fun values => settled (v.method name values) := rfl

end Equations

/-- The evaluations of expressions. -/
def evals (scope : Scope m) (functions : FunctionTable) (es : List Expr) :
    List (ExceptT Stop m Value) :=
  es.map (eval scope functions)

/-- Expressions that evaluate alike are as many. -/
theorem length_eq_of_evals_eq {es es' : List Expr}
    (same : evals scope functions es' = evals scope functions es) : es'.length = es.length := by
  have lengths := congrArg List.length same
  rwa [evals, evals, List.length_map, List.length_map] at lengths

/-- What goes through expressions from the left depends on the evaluations of these
only. -/
theorem congr_of_cons {σ ρ : Type} (run : σ → List Expr → ExceptT Stop m ρ)
    (step : σ → Value → (σ → ExceptT Stop m ρ) → ExceptT Stop m ρ)
    (cons : ∀ s e rest, run s (e :: rest) =
      e.eval scope functions >>= fun v => step s v fun next => run next rest)
    {es es' : List Expr} (same : evals scope functions es' = evals scope functions es) (s : σ) :
    run s es' = run s es := by
  induction es generalizing es' s with
  | nil => rw [List.map_eq_nil_iff.mp same]
  | cons e rest ih =>
    cases es' with
    | nil => cases same
    | cons e' rest' =>
      rw [evals, evals, List.map_cons, List.map_cons, List.cons.injEq] at same
      obtain ⟨first, others⟩ := same
      have onward : (fun next => run next rest') = fun next => run next rest :=
        funext fun next => ih others next
      rw [cons, cons, first, onward]

section Congruence

variable {es es' : List Expr} (same : evals scope functions es' = evals scope functions es)

include same

/-- Lists of values depend on the evaluations of the items only. -/
theorem evalAll_congr : evalAll scope functions es' = evalAll scope functions es :=
  congr_of_cons (fun (_ : Unit) => evalAll scope functions)
    (fun _ v onward => onward () >>= fun values => pure (v :: values))
    (fun _ _ _ => rfl) same ()

/-- Sums depend on the evaluations of the summands only. -/
theorem evalSum_congr (total : Value) :
    evalSum scope functions total es' = evalSum scope functions total es :=
  congr_of_cons (evalSum scope functions) (fun total v onward => onward (addValues total v))
    (fun _ _ _ => rfl) same total

/-- Products depend on the evaluations of the factors only. -/
theorem evalProduct_congr (total : Value) :
    evalProduct scope functions total es' = evalProduct scope functions total es :=
  congr_of_cons (evalProduct scope functions)
    (fun total v onward => onward (mulValues total v)) (fun _ _ _ => rfl) same total

/-- Conjunctions depend on the evaluations of the operands only. -/
theorem evalAnd_congr (last : Value) :
    evalAnd scope functions last es' = evalAnd scope functions last es :=
  congr_of_cons (evalAnd scope functions)
    (fun _ v onward => if v.countsAsTrue then onward v else pure v) (fun _ _ _ => rfl) same last

/-- Disjunctions depend on the evaluations of the operands only. -/
theorem evalOr_congr (last : Value) :
    evalOr scope functions last es' = evalOr scope functions last es :=
  congr_of_cons (evalOr scope functions)
    (fun _ v onward => if v.countsAsTrue then pure v else onward v) (fun _ _ _ => rfl) same last

/-- A sum evaluates by the evaluations of its operands. -/
theorem eval_add_congr : eval scope functions (.add es') = eval scope functions (.add es) := by
  cases es with
  | nil => rw [List.map_eq_nil_iff.mp same]
  | cons e rest =>
    cases es' with
    | nil => cases same
    | cons e' rest' =>
      rw [evals, evals, List.map_cons, List.map_cons, List.cons.injEq] at same
      rw [eval_add_cons, eval_add_cons, same.1]
      exact congrArg _ (funext fun v => evalSum_congr same.2 v)

/-- A product evaluates by the evaluations of its operands. -/
theorem eval_mul_congr : eval scope functions (.mul es') = eval scope functions (.mul es) := by
  cases es with
  | nil => rw [List.map_eq_nil_iff.mp same]
  | cons e rest =>
    cases es' with
    | nil => cases same
    | cons e' rest' =>
      rw [evals, evals, List.map_cons, List.map_cons, List.cons.injEq] at same
      rw [eval_mul_cons, eval_mul_cons, same.1]
      exact congrArg _ (funext fun v => evalProduct_congr same.2 v)

end Congruence

/-- A member of a path is read from the scope in one go. -/
theorem eval_get_var (p : Path) (b : Expr) :
    eval scope functions (.get (.var p) b) =
      b.eval scope functions >>= fun name => scope.resolve (p ++ [name.display]) := rfl

/-- A member of an expression that is no path is that of its value. -/
theorem eval_get_of_ne_var {a : Expr} (other : ∀ p, a ≠ .var p) (b : Expr) :
    eval scope functions (.get a b) =
      b.eval scope functions >>= fun name =>
        a.eval scope functions >>= fun v => settled (v.member name.display) := by
  cases a with
  | var p => exact absurd rfl (other p)
  | _ => rfl

/-- A member of an expression evaluates by the evaluations of both, if the expression
is a path where the other one is. -/
theorem eval_get_congr {a a' b b' : Expr}
    (same : a'.eval scope functions = a.eval scope functions)
    (sameKey : b'.eval scope functions = b.eval scope functions)
    (path : ∀ p, a' = .var p ↔ a = .var p) :
    eval scope functions (.get a' b') = eval scope functions (.get a b) := by
  by_cases named : ∃ p, a = .var p
  · obtain ⟨p, rfl⟩ := named
    obtain rfl := (path p).mpr rfl
    rw [eval_get_var, eval_get_var, sameKey]
  · rw [eval_get_of_ne_var (fun p h => named ⟨p, (path p).mp h⟩),
      eval_get_of_ne_var (fun p h => named ⟨p, h⟩), same, sameKey]

end DerivedTags.Snippet.Expr
