import DerivedTags.Proofs.Snippet.Congruence
import DerivedTags.Proofs.Snippet.Overflow

/-!
# What an evaluation depends on

An evaluation meets the world where it resolves a path and where it calls by path,
and nowhere else. Two scopes that correspond there, for the paths that occur in an
expression, make evaluations that correspond. What it means to correspond is left
open: equal results, related effects, or both.
-/

namespace DerivedTags.Snippet

/-- A relation between evaluations in two monads that holds of equal settled results
and goes from parts to their sequence. -/
structure Correspondence (m m' : Type → Type) [Monad m] [Monad m'] where
  /-- The two evaluations correspond. -/
  holds : {α : Type} → ExceptT Stop m α → ExceptT Stop m' α → Prop
  /-- A settled result corresponds to itself. -/
  settled : ∀ {α : Type} (result : Except Stop α), holds (settled result) (settled result)
  /-- Sequences of what corresponds correspond. -/
  bind : ∀ {α β : Type} {x : ExceptT Stop m α} {y : ExceptT Stop m' α}
    {f : α → ExceptT Stop m β} {g : α → ExceptT Stop m' β},
    holds x y → (∀ a, holds (f a) (g a)) → holds (x >>= f) (y >>= g)

namespace Correspondence

variable {m m' : Type → Type} [Monad m] [Monad m'] (c : Correspondence m m')

/-- A mere value corresponds to itself. -/
theorem pure {α : Type} (a : α) : c.holds (Pure.pure a) (Pure.pure a) := c.settled (.ok a)

/-- Two scopes correspond where an expression can meet them. -/
structure Covers (scope : Scope m) (scope' : Scope m') (functions : FunctionTable) (e : Expr) :
    Prop where
  /-- At the paths that occur in it. -/
  path : ∀ p, Expr.Occurs (.var p) e → c.holds (scope.resolve p) (scope'.resolve p)
  /-- At the members of these paths whose names are computed. -/
  member : ∀ p key name, Expr.Occurs (.get (.var p) key) e →
    c.holds (scope.resolve (p ++ [name])) (scope'.resolve (p ++ [name]))
  /-- At its calls, whatever the arguments are. -/
  call : ∀ p args values, Expr.Occurs (.call p args) e →
    c.holds (invoke scope functions p values) (invoke scope' functions p values)

variable {c} {scope : Scope m} {scope' : Scope m'} {functions : FunctionTable}

/-- Scopes that correspond for an expression do so for its operands. -/
theorem Covers.of_mem {e operand : Expr} (covers : c.Covers scope scope' functions e)
    (mem : operand ∈ e.operands) : c.Covers scope scope' functions operand where
  path p occurs := covers.path p (.inside mem occurs)
  member p key name occurs := covers.member p key name (.inside mem occurs)
  call p args values occurs := covers.call p args values (.inside mem occurs)

/-- What goes through corresponding expressions from the left corresponds. -/
theorem of_cons {σ ρ : Type} (run : σ → List Expr → ExceptT Stop m ρ)
    (run' : σ → List Expr → ExceptT Stop m' ρ)
    (step : σ → Value → (σ → ExceptT Stop m ρ) → ExceptT Stop m ρ)
    (step' : σ → Value → (σ → ExceptT Stop m' ρ) → ExceptT Stop m' ρ)
    (nil : ∀ s, c.holds (run s []) (run' s []))
    (cons : ∀ s e rest, run s (e :: rest) =
      e.eval scope functions >>= fun v => step s v fun next => run next rest)
    (cons' : ∀ s e rest, run' s (e :: rest) =
      e.eval scope' functions >>= fun v => step' s v fun next => run' next rest)
    (steps : ∀ s v onward onward', (∀ next, c.holds (onward next) (onward' next)) →
      c.holds (step s v onward) (step' s v onward'))
    {es : List Expr} (each : ∀ e ∈ es, c.holds (e.eval scope functions) (e.eval scope' functions))
    (s : σ) : c.holds (run s es) (run' s es) := by
  induction es generalizing s with
  | nil => exact nil s
  | cons e rest ih =>
    have others := ih fun e mem => each e (List.mem_cons_of_mem _ mem)
    rw [cons, cons']
    exact c.bind (each e List.mem_cons_self) fun v => steps s v _ _ others

section Lists

variable {es : List Expr}
  (each : ∀ e ∈ es, c.holds (e.eval scope functions) (e.eval scope' functions))

include each

/-- Lists of values of corresponding expressions correspond. -/
theorem holds_all : c.holds (evalAll scope functions es) (evalAll scope' functions es) :=
  of_cons (fun (_ : Unit) => evalAll scope functions)
    (fun (_ : Unit) => evalAll scope' functions)
    (fun _ v onward => onward () >>= fun values => Pure.pure (v :: values))
    (fun _ v onward => onward () >>= fun values => Pure.pure (v :: values))
    (fun _ => c.pure []) (fun _ _ _ => rfl) (fun _ _ _ => rfl)
    (fun _ v _ _ onward => c.bind (onward ()) fun values => c.pure (v :: values)) each ()

/-- Sums of corresponding expressions correspond. -/
theorem holds_sum (total : Value) :
    c.holds (evalSum scope functions total es) (evalSum scope' functions total es) :=
  of_cons (evalSum scope functions) (evalSum scope' functions)
    (fun total v onward => onward (addValues total v))
    (fun total v onward => onward (addValues total v)) c.pure (fun _ _ _ => rfl)
    (fun _ _ _ => rfl) (fun total v _ _ onward => onward (addValues total v)) each total

/-- Products of corresponding expressions correspond. -/
theorem holds_product (total : Value) :
    c.holds (evalProduct scope functions total es)
      (evalProduct scope' functions total es) :=
  of_cons (evalProduct scope functions) (evalProduct scope' functions)
    (fun total v onward => onward (mulValues total v))
    (fun total v onward => onward (mulValues total v)) c.pure (fun _ _ _ => rfl)
    (fun _ _ _ => rfl) (fun total v _ _ onward => onward (mulValues total v)) each total

/-- Conjunctions of corresponding expressions correspond. -/
theorem holds_and (last : Value) :
    c.holds (evalAnd scope functions last es) (evalAnd scope' functions last es) := by
  refine of_cons (evalAnd scope functions) (evalAnd scope' functions)
    (fun _ v onward => if v.countsAsTrue then onward v else Pure.pure v)
    (fun _ v onward => if v.countsAsTrue then onward v else Pure.pure v) c.pure
    (fun _ _ _ => rfl) (fun _ _ _ => rfl) (fun _ v _ _ onward => ?_) each last
  split
  · exact onward v
  · exact c.pure v

/-- Disjunctions of corresponding expressions correspond. -/
theorem holds_or (last : Value) :
    c.holds (evalOr scope functions last es) (evalOr scope' functions last es) := by
  refine of_cons (evalOr scope functions) (evalOr scope' functions)
    (fun _ v onward => if v.countsAsTrue then Pure.pure v else onward v)
    (fun _ v onward => if v.countsAsTrue then Pure.pure v else onward v) c.pure
    (fun _ _ _ => rfl) (fun _ _ _ => rfl) (fun _ v _ _ onward => ?_) each last
  split
  · exact c.pure v
  · exact onward v

end Lists

/-- Where two scopes correspond for an expression, its evaluations correspond. -/
theorem holds_eval {e : Expr} (covers : c.Covers scope scope' functions e) :
    c.holds (e.eval scope functions) (e.eval scope' functions) := by
  have inside : ∀ o ∈ e.operands, c.holds (o.eval scope functions) (o.eval scope' functions) :=
    fun o mem => holds_eval (covers.of_mem mem)
  cases e with
  | literal v => exact c.pure v
  | var path => exact covers.path path .self
  | list args => exact c.bind (holds_all inside) fun values => c.pure _
  | call path args =>
    exact c.bind (holds_all inside) fun values => covers.call path args values .self
  | and args => exact holds_and inside _
  | or args => exact holds_or inside _
  | add args =>
    cases args with
    | nil => exact c.pure _
    | cons e rest =>
      exact c.bind (inside e List.mem_cons_self) fun v =>
        holds_sum (fun o mem => inside o (List.mem_cons_of_mem _ mem)) v
  | mul args =>
    cases args with
    | nil => exact c.pure _
    | cons e rest =>
      exact c.bind (inside e List.mem_cons_self) fun v =>
        holds_product (fun o mem => inside o (List.mem_cons_of_mem _ mem)) v
  | neg a => exact c.bind (inside a (by simp [Expr.operands])) fun v => c.pure _
  | not a => exact c.bind (inside a (by simp [Expr.operands])) fun v => c.pure _
  | get a b =>
    have key := inside b (by simp [Expr.operands])
    by_cases named : ∃ p, a = .var p
    · obtain ⟨p, rfl⟩ := named
      exact c.bind key fun name => covers.member p b name.display .self
    · have other : ∀ p, a ≠ .var p := fun p same => named ⟨p, same⟩
      rw [Expr.eval_get_of_ne_var other, Expr.eval_get_of_ne_var other]
      exact c.bind key fun name =>
        c.bind (inside a (by simp [Expr.operands])) fun v => c.settled _
  | binary op a b =>
    exact c.bind (inside a (by simp [Expr.operands])) fun v =>
      c.bind (inside b (by simp [Expr.operands])) fun w => c.settled _
  | coalesce a b =>
    refine c.bind (inside a (by simp [Expr.operands])) fun v => ?_
    split
    · exact inside b (by simp [Expr.operands])
    · exact c.pure v
  | onlyIf a b =>
    refine c.bind (inside a (by simp [Expr.operands])) fun v => ?_
    split
    · exact inside b (by simp [Expr.operands])
    · exact c.pure _
  | ifElse a b d =>
    refine c.bind (inside a (by simp [Expr.operands])) fun v => ?_
    split
    · exact inside b (by simp [Expr.operands])
    · exact inside d (by simp [Expr.operands])
  | method a name args =>
    exact c.bind (inside a List.mem_cons_self) fun v =>
      c.bind (holds_all fun o mem => inside o (List.mem_cons_of_mem _ mem)) fun values =>
        c.settled _
termination_by sizeOf e
decreasing_by exact Expr.sizeOf_lt_of_mem_operands mem

end Correspondence

end DerivedTags.Snippet
