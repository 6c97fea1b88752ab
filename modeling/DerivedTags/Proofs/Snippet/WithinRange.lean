import DerivedTags.Proofs.Snippet.Congruence
import DerivedTags.Proofs.Snippet.Overflow
import DerivedTags.Snippet.Compiled

/-!
# Evaluations that never break off

Divisions, slices, cuts of texts and numbers with a fixed number of places have operands for
which there is no result, and these break an evaluation off. The evaluation reaches none of
them: with bindings and the standard functions it ends in a value or in an error that it
found itself.
-/

namespace DerivedTags.Snippet

/-- A result that nothing broke off: a value, or an error that is no contained panic. -/
inductive Own {α : Type} : Except Stop α → Prop where
  /-- A value. -/
  | value (a : α) : Own (.ok a)
  /-- An error of the evaluation. -/
  | failure {e : EvalFailure} (found : ∀ p, e ≠ .panicked p) : Own (.error (.error e))

namespace Own

variable {α β : Type}

/-- What follows a result that nothing broke off need only go on from its value. -/
theorem bind {r : Except Stop α} {f : α → Except Stop β} (own : Own r)
    (onward : ∀ a, r = .ok a → Own (f a)) : Own (r >>= f) := by
  cases own with
  | value a => exact onward a rfl
  | failure found => exact .failure found

/-- A function of the value keeps a result as it is otherwise. -/
theorem map {r : Except Stop α} (own : Own r) (f : α → β) : Own (r.map f) := by
  cases own with
  | value a => exact .value (f a)
  | failure found => exact .failure found

/-- Containing panics leaves the result as it is. -/
theorem contained_eq {r : Except Stop Value} (own : Own r) :
    (∃ v, r = .ok v ∧ contained r = .ok v) ∨
      ∃ e, r = .error (.error e) ∧ (∀ p, e ≠ .panicked p) ∧ contained r = .error e := by
  cases own with
  | value v => exact .inl ⟨v, rfl, rfl⟩
  | failure found => exact .inr ⟨_, rfl, found, rfl⟩

end Own

section Operators

/-- A division that leaves no remainder can be carried out. -/
theorem exists_quotient_of_remainder? {a b r : Int64} (h : Whole.remainder? a b = some r) :
    ∃ q, Whole.quotient a b = .ok q := by
  unfold Whole.remainder? at h
  unfold Whole.quotient
  rcases zero : b == 0 <;> rcases fits : Whole.quotientFits a b <;> simp [zero, fits] at h ⊢

/-- Quotients never break off: only exact ones are taken of integers. -/
theorem own_divValues (a b : Value) : Own (divValues a b) := by
  unfold divValues
  split
  · split
    · rename_i exact
      obtain ⟨q, computed⟩ := exists_quotient_of_remainder? exact
      rw [computed]
      exact .value _
    · exact .value _
  · exact .value _

/-- No operator breaks off. -/
theorem own_apply (op : BinaryOp) (a b : Value) : Own (op.apply a b) := by
  cases op with
  | div => exact own_divValues a b
  | _ => exact .value _

end Operators

namespace Value

/-- Reading a member never breaks off. -/
theorem own_member (v : Value) (key : String) : Own (v.member key) := by
  cases v with
  | undefined | null => exact .failure fun p same => nomatch same
  | bool _ | int _ | float _ | object _ _ => exact .value _
  | str s =>
    simp only [member]
    split <;> exact .value _
  | array identity items =>
    simp only [member]
    split
    · exact .value _
    · split <;> exact .value _

/-- Following a path never breaks off. -/
theorem own_follow (v : Value) (path : List String) : Own (v.follow path) := by
  induction path generalizing v with
  | nil => exact .value v
  | cons key rest ih =>
    have first := own_member v key
    unfold follow
    cases read : v.member key with
    | ok inner => exact ih inner
    | error stop =>
      rw [read] at first
      cases first with
      | failure found => exact .failure found

/-- The positions of an occurrence and of a part are within the text. -/
theorem own_textMethod (s name : String) (args : List Value) : Own (textMethod s name args) := by
  unfold textMethod
  split
  case h_7 =>
    dsimp only
    split
    · rename_i position found
      obtain ⟨before, after, cut, rfl⟩ := Text.exists_of_find? found
      rw [Text.eq_of_cutAt cut, List.append_assoc, textBefore_bytes]
      exact .value _
    · exact .value _
  case h_8 => split <;> exact .value _
  case h_9 =>
    refine Own.map ?_ ofChars
    rw [slice_of_le (by omega) (by omega)]
    exact .value _
  case h_11 => exact .failure fun p same => nomatch same
  all_goals exact .value _

/-- Methods of arrays never break off. -/
theorem own_arrayMethod (items : List Value) (name : String) (args : List Value) :
    Own (arrayMethod items name args) := by
  unfold arrayMethod
  split
  case h_4 => exact .failure fun p same => nomatch same
  all_goals exact .value _

/-- A number of places that is cut off at the most there may be is in the range of those
that can be written. -/
theorem own_numberMethod (x : Float) (name : String) (args : List Value) :
    Own (numberMethod x name args) := by
  unfold numberMethod
  split
  · unfold fixed
    split
    · rw [if_pos (Nat.le_trans (Nat.min_le_right _ _) (by decide))]
      exact .value _
    · exact .value _
  · exact .failure fun p same => nomatch same

/-- No method breaks off. -/
theorem own_method (receiver : Value) (name : String) (args : List Value) :
    Own (receiver.method name args) := by
  unfold method
  split
  · exact .failure fun p same => nomatch same
  · exact .failure fun p same => nomatch same
  · split
    · exact .value _
    · split
      · exact own_textMethod _ name args
      · exact own_arrayMethod _ name args
      · exact own_numberMethod _ name args
      · exact own_numberMethod _ name args
      · exact .failure fun p same => nomatch same

end Value

namespace FunctionTable

/-- The functions of a table never break off. -/
def OwnResults (functions : FunctionTable) : Prop :=
  ∀ name f, functions.get? name = some f → ∀ args, Own (f args)

/-- The sign and digits at the start of a text end between characters. -/
theorem own_parseInteger (args : List Value) : Own (parseInteger args) := by
  unfold parseInteger
  obtain ⟨digits, rest, same, position⟩ := Text.exists_endFrom
    (fun position c => c.isDigit || position == 0 && (c == '-' || c == '+')) 0
    (Text.trimStart (textOfFirst args))
  rw [Nat.zero_add] at position
  have cut : textBefore (integerEnd (Text.trimStart (textOfFirst args)))
      (Text.trimStart (textOfFirst args)) = .ok digits := by
    rw [integerEnd, position, same, textBefore_bytes]
  simp only [cut]
  refine Own.bind (.value digits) fun _ _ => ?_
  split <;> exact .value _

/-- Only prefixes that end between characters are tried. -/
theorem own_longestDouble (cs : List Char) (position : Nat) : Own (longestDouble cs position) := by
  induction position with
  | zero => exact .value none
  | succ position ih =>
    unfold longestDouble
    split
    · rename_i boundary
      obtain ⟨numeral, cut⟩ := exists_textBefore boundary
      rw [cut]
      refine Own.bind (.value numeral) fun _ _ => ?_
      split
      · exact .value _
      · exact ih
    · exact ih

/-- The standard functions never break off. -/
theorem ownResults_standard : standard.OwnResults := by
  intro name f found args
  obtain ⟨_, _, split, -⟩ := List.lookup_eq_some_iff.mp found
  have mem : (name, f) ∈ standard.entries := by
    rw [split]
    simp
  simp only [standard, List.mem_cons, Prod.mk.injEq, List.not_mem_nil, or_false] at mem
  rcases mem with ⟨-, rfl⟩ | ⟨-, rfl⟩ | ⟨-, rfl⟩ | ⟨-, rfl⟩ | ⟨-, rfl⟩ | ⟨-, rfl⟩ | ⟨-, rfl⟩ |
    ⟨-, rfl⟩ | ⟨-, rfl⟩ | ⟨-, rfl⟩ | ⟨-, rfl⟩ | ⟨-, rfl⟩
  case inr.inr.inr.inr.inr.inr.inr.inl =>
    unfold number
    split <;> exact .value _
  case inr.inr.inr.inr.inr.inr.inr.inr.inr.inl => exact own_parseInteger args
  case inr.inr.inr.inr.inr.inr.inr.inr.inr.inr.inl =>
    exact (own_longestDouble _ _).bind fun _ _ => .value _
  all_goals exact .value _

end FunctionTable

/-- What a scope resolves and calls never breaks off. -/
structure Scope.OwnResults (scope : Scope Id) : Prop where
  /-- Paths. -/
  resolve : ∀ path, Own (scope.resolve path).run
  /-- Calls. -/
  call : ∀ path args result, scope.call path args = some result → Own result.run

/-- Bindings resolve paths without breaking off. -/
theorem Bindings.ownResults_scope (b : Bindings) : b.scope.OwnResults where
  resolve path := by
    cases path with
    | nil => exact .value _
    | cons name rest =>
      change Own (b.resolve (name :: rest))
      rw [resolve]
      split
      · exact Value.own_follow _ rest
      · exact .failure fun p same => nomatch same
  call path args result called := nomatch called

namespace Expr

variable {scope : Scope Id} {functions : FunctionTable} {es : List Expr}

/-- A sequence goes on from the value of its first part. -/
theorem own_run_bind {α β : Type} {x : ExceptT Stop Id α} {f : α → ExceptT Stop Id β}
    (own : Own x.run) (onward : ∀ a, Own (f a).run) : Own (x >>= f).run := by
  change Own (ExceptT.bindCont (m := Id) f x.run)
  generalize x.run = r at own ⊢
  cases own with
  | value a => exact onward a
  | failure found => exact .failure found

/-- A settled result is as it is. -/
theorem own_settled {α : Type} {r : Except Stop α} (own : Own r) :
    Own (settled (m := Id) r).run := own

/-- What goes through expressions from the left breaks off only in one of them or in what
it makes of their values. -/
theorem own_of_cons {σ ρ : Type} (run : σ → List Expr → ExceptT Stop Id ρ)
    (step : σ → Value → (σ → ExceptT Stop Id ρ) → ExceptT Stop Id ρ)
    (nil : ∀ s, Own (run s []).run)
    (cons : ∀ s e rest, run s (e :: rest) =
      e.eval scope functions >>= fun v => step s v fun next => run next rest)
    (steps : ∀ s v onward, (∀ next, Own (onward next).run) → Own (step s v onward).run)
    (each : ∀ e ∈ es, Own (e.eval scope functions).run) (s : σ) : Own (run s es).run := by
  induction es generalizing s with
  | nil => exact nil s
  | cons e rest ih =>
    rw [cons]
    exact own_run_bind (each e List.mem_cons_self) fun v =>
      steps s v _ (ih fun e mem => each e (List.mem_cons_of_mem _ mem))

section Lists

variable (each : ∀ e ∈ es, Own (e.eval scope functions).run)

include each

/-- Lists of values break off only in an operand. -/
theorem own_evalAll : Own (evalAll scope functions es).run :=
  own_of_cons (fun (_ : Unit) => evalAll scope functions)
    (fun _ v onward => onward () >>= fun values => pure (v :: values))
    (fun _ => .value _) (fun _ _ _ => rfl)
    (fun _ _ _ onward => own_run_bind (onward ()) fun _ => .value _) each ()

/-- Sums break off only in an operand. -/
theorem own_evalSum (total : Value) : Own (evalSum scope functions total es).run :=
  own_of_cons (evalSum scope functions) (fun total v onward => onward (addValues total v))
    .value (fun _ _ _ => rfl) (fun _ _ _ onward => onward _) each total

/-- Products break off only in an operand. -/
theorem own_evalProduct (total : Value) : Own (evalProduct scope functions total es).run :=
  own_of_cons (evalProduct scope functions) (fun total v onward => onward (mulValues total v))
    .value (fun _ _ _ => rfl) (fun _ _ _ onward => onward _) each total

/-- Conjunctions break off only in an operand. -/
theorem own_evalAnd (last : Value) : Own (evalAnd scope functions last es).run := by
  refine own_of_cons (evalAnd scope functions)
    (fun _ v onward => if v.countsAsTrue then onward v else pure v)
    .value (fun _ _ _ => rfl) (fun _ v _ onward => ?_) each last
  split
  · exact onward v
  · exact .value v

/-- Disjunctions break off only in an operand. -/
theorem own_evalOr (last : Value) : Own (evalOr scope functions last es).run := by
  refine own_of_cons (evalOr scope functions)
    (fun _ v onward => if v.countsAsTrue then pure v else onward v)
    .value (fun _ _ _ => rfl) (fun _ v _ onward => ?_) each last
  split
  · exact .value v
  · exact onward v

end Lists

section Evaluation

variable (scopes : scope.OwnResults) (tables : functions.OwnResults)

include scopes tables

/-- Calls by path break off only where the scope or a function does. -/
theorem own_invoke (path : Path) (args : List Value) :
    Own (invoke scope functions path args).run := by
  unfold invoke
  split
  · rename_i result called
    exact scopes.call path args result called
  · split
    · rename_i f found
      exact own_settled (tables _ f found args)
    · split
      · exact .failure fun p same => nomatch same
      · split
        · exact .failure fun p same => nomatch same
        · exact own_run_bind (scopes.resolve _) fun v => own_settled (v.own_method _ args)

/-- An expression breaks off only where the scope or a function does. -/
theorem own_eval (e : Expr) : Own (e.eval scope functions).run := by
  have inside : ∀ o ∈ e.operands, Own (o.eval scope functions).run := fun o mem =>
    have := sizeOf_lt_of_mem_operands mem
    own_eval o
  cases e with
  | literal v => exact .value v
  | var path => exact scopes.resolve path
  | list args => exact own_run_bind (own_evalAll inside) fun values => .value _
  | call path args =>
    exact own_run_bind (own_evalAll inside) fun values => own_invoke scopes tables path values
  | and args => exact own_evalAnd inside _
  | or args => exact own_evalOr inside _
  | add args =>
    cases args with
    | nil => exact .value _
    | cons e rest =>
      exact own_run_bind (inside e List.mem_cons_self) fun v =>
        own_evalSum (fun o mem => inside o (List.mem_cons_of_mem _ mem)) v
  | mul args =>
    cases args with
    | nil => exact .value _
    | cons e rest =>
      exact own_run_bind (inside e List.mem_cons_self) fun v =>
        own_evalProduct (fun o mem => inside o (List.mem_cons_of_mem _ mem)) v
  | neg a | not a => exact own_run_bind (inside a (by simp [operands])) fun v => .value _
  | get a b =>
    have key := inside b (by simp [operands])
    by_cases named : ∃ p, a = .var p
    · obtain ⟨p, rfl⟩ := named
      exact own_run_bind key fun name => scopes.resolve _
    · rw [eval_get_of_ne_var fun p same => named ⟨p, same⟩]
      exact own_run_bind key fun name =>
        own_run_bind (inside a (by simp [operands])) fun v => own_settled (v.own_member _)
  | binary op a b =>
    exact own_run_bind (inside a (by simp [operands])) fun v =>
      own_run_bind (inside b (by simp [operands])) fun w => own_settled (own_apply op v w)
  | coalesce a b =>
    refine own_run_bind (inside a (by simp [operands])) fun v => ?_
    split
    · exact inside b (by simp [operands])
    · exact .value v
  | onlyIf a b =>
    refine own_run_bind (inside a (by simp [operands])) fun v => ?_
    split
    · exact inside b (by simp [operands])
    · exact .value _
  | ifElse a b c =>
    refine own_run_bind (inside a (by simp [operands])) fun v => ?_
    split
    · exact inside b (by simp [operands])
    · exact inside c (by simp [operands])
  | method a name args =>
    exact own_run_bind (inside a List.mem_cons_self) fun v =>
      own_run_bind (own_evalAll fun o mem => inside o (List.mem_cons_of_mem _ mem)) fun values =>
        own_settled (v.own_method name values)
termination_by sizeOf e

end Evaluation

end Expr

/-- With bindings and the standard functions no evaluation breaks off: it gives a value or an
error that the evaluation itself found, and containing panics changes nothing. -/
theorem Compiled.evaluate_own (c : Compiled) (b : Bindings) :
    (∃ v, (c.expr.eval b.scope .standard).run = .ok v ∧ c.evaluate .standard b.scope = .ok v) ∨
      ∃ e, (c.expr.eval b.scope .standard).run = .error (.error e) ∧ (∀ p, e ≠ .panicked p) ∧
        c.evaluate .standard b.scope = .error e :=
  (Expr.own_eval b.ownResults_scope FunctionTable.ownResults_standard c.expr).contained_eq

end DerivedTags.Snippet
