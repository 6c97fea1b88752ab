import DerivedTags.Proofs.Snippet.ExactIntegers
import DerivedTags.Proofs.Snippet.Levels

/-!
# Integer arithmetic in snippets

A snippet made of integers, round brackets, the five arithmetic operators and signs is an
arithmetic expression. It evaluates to an integer exactly where every part of it has an
exact value of 64 bits, and then to its own exact value. Everywhere else it evaluates to
a double. It never fails.
-/

namespace DerivedTags.Snippet

/-- Arithmetic expressions over integers of 64 bits. -/
inductive Arith where
  /-- An integer. -/
  | int (n : Int64)
  /-- A plus in front of an expression. -/
  | positive (e : Arith)
  /-- A minus in front of an expression. -/
  | negative (e : Arith)
  /-- An operator between two expressions. -/
  | joined (o : ArithmeticOp) (left right : Arith)

namespace Arith

open Whole

/-- The operator tree of an expression. -/
def tree : Arith → Json
  | .int n => .num (.int n)
  | .positive e => .arr [.str "call", .arr [.str "Number"], e.tree]
  | .negative e => .arr [.str "neg", e.tree]
  | .joined o left right => .arr [.str o.operator.text, left.tree, right.tree]

/-- The exact value of an expression, if each of its parts has one. -/
def exact : Arith → Option Int
  | .int n => some n.toInt
  | .positive e => e.exact
  | .negative e => e.exact.map fun n => -n
  | .joined o left right => do o.exact (← left.exact) (← right.exact)

/-- An expression and everything in it. -/
def parts : Arith → List Arith
  | .int n => [.int n]
  | .positive e => .positive e :: e.parts
  | .negative e => .negative e :: e.parts
  | .joined o left right => .joined o left right :: (left.parts ++ right.parts)

/-- Whether every part of an expression has an exact value of 64 bits. -/
def Within (e : Arith) : Prop := ∀ part ∈ e.parts, ∃ n, part.exact = some n ∧ Fits n

/-- An expression is one of its parts. -/
theorem self_mem_parts (e : Arith) : e ∈ e.parts := by
  cases e <;> exact List.mem_cons_self

/-- An integer has an exact value of 64 bits. -/
theorem within_int (n : Int64) : (Arith.int n).Within := by
  intro part mem
  obtain rfl := List.mem_singleton.mp mem
  exact ⟨_, rfl, fits_toInt n⟩

/-- A plus changes nothing. -/
theorem within_positive_iff (e : Arith) : (Arith.positive e).Within ↔ e.Within :=
  ⟨fun h part mem => h part (List.mem_cons_of_mem _ mem),
    fun h => List.forall_mem_cons.mpr ⟨h e e.self_mem_parts, h⟩⟩

/-- A negative needs a value of 64 bits beyond what its operand needs. -/
theorem within_negative_iff (e : Arith) :
    (Arith.negative e).Within ↔
      (∃ n, (Arith.negative e).exact = some n ∧ Fits n) ∧ e.Within :=
  List.forall_mem_cons

/-- An operator needs a value of 64 bits beyond what its operands need. -/
theorem within_joined_iff (o : ArithmeticOp) (left right : Arith) :
    (Arith.joined o left right).Within ↔
      (∃ n, (Arith.joined o left right).exact = some n ∧ Fits n) ∧ left.Within ∧ right.Within :=
  List.forall_mem_cons.trans (and_congr_right fun _ => List.forall_mem_append)

/-- What evaluation makes of an expression: its exact value if all its parts have one of 64
bits, else a double. -/
inductive Outcome (e : Arith) : Value → Prop where
  /-- An integer. -/
  | int {n : Int64} (within : e.Within) (exact : e.exact = some n.toInt) : Outcome e (.int n)
  /-- A double. -/
  | float {x : Float} (beyond : ¬ e.Within) : Outcome e (.float x)

/-- An outcome is a number. -/
theorem Outcome.isNumber {e : Arith} {v : Value} (outcome : e.Outcome v) : Expr.IsNumber v := by
  cases outcome <;> trivial

/-- The outcome of a negative. -/
theorem Outcome.negative {e : Arith} {v : Value} (outcome : e.Outcome v) :
    (Arith.negative e).Outcome (negValue v) := by
  cases outcome with
  | @int n within exact =>
    have value : (Arith.negative e).exact = some (-n.toInt) := by rw [Arith.exact, exact]; rfl
    by_cases fits : Fits (-n.toInt)
    · obtain ⟨k, has, same⟩ := fits.exists_signed?
      have result : negValue (.int n) = .int k := by simp only [negValue, neg?, has]
      rw [result]
      exact .int ((within_negative_iff e).mpr ⟨⟨_, value, fits⟩, within⟩) (by rw [value, same])
    · have result : negValue (.int n) = .float (-toFloat n) := by
        simp only [negValue, neg?, signed?_of_not_fits fits]
      rw [result]
      refine .float fun all => ?_
      obtain ⟨⟨m, found, small⟩, -⟩ := (within_negative_iff e).mp all
      cases value.symm.trans found
      exact fits small
  | float beyond => exact .float fun all => beyond ((within_negative_iff e).mp all).2

/-- The exact value of an operator between expressions that have one. -/
theorem exact_joined (o : ArithmeticOp) {left right : Arith} {a b : Int}
    (first : left.exact = some a) (second : right.exact = some b) :
    (Arith.joined o left right).exact = o.exact a b := by
  rw [exact, first, second]
  rfl

/-- The outcome of an operator. -/
theorem Outcome.joined (o : ArithmeticOp) {left right : Arith} {v w : Value}
    (first : left.Outcome v) (second : right.Outcome w) :
    ∃ u, o.apply v w = .ok u ∧ (Arith.joined o left right).Outcome u := by
  have inexact (either : (∃ x, v = .float x) ∨ ∃ x, w = .float x)
      (beyond : ¬ (left.Within ∧ right.Within)) :
      ∃ u, o.apply v w = .ok u ∧ (Arith.joined o left right).Outcome u := by
    obtain ⟨x, result⟩ := o.apply_of_float first.isNumber second.isNumber either
    exact ⟨_, result, .float fun all => beyond ((within_joined_iff o left right).mp all).2⟩
  cases first with
  | float beyond => exact inexact (.inl ⟨_, rfl⟩) fun all => beyond all.1
  | @int a within exact =>
    cases second with
    | float beyond => exact inexact (.inr ⟨_, rfl⟩) fun all => beyond all.2
    | @int b within' exact' =>
      have value := exact_joined o exact exact'
      by_cases fits : ∃ n, o.exact a.toInt b.toInt = some n ∧ Fits n
      · obtain ⟨n, found, small⟩ := fits
        obtain ⟨k, result, same⟩ := ArithmeticOp.apply_of_fits found small
        rw [found] at value
        have all := (within_joined_iff o left right).mpr ⟨⟨n, value, small⟩, within, within'⟩
        exact ⟨_, result, .int all (by rw [value, same])⟩
      · obtain ⟨x, result⟩ := ArithmeticOp.apply_of_not_fits fun n found small =>
          fits ⟨n, found, small⟩
        refine ⟨_, result, .float fun all => fits ?_⟩
        obtain ⟨n, found, small⟩ := ((within_joined_iff o left right).mp all).1
        exact ⟨n, value.symm.trans found, small⟩

section Evaluation

variable (b : Bindings)

/-- An operator is applied to the values of both operands. -/
theorem eval_joined (o : ArithmeticOp) (left right : Arith) :
    (Expr.ofTree (Arith.joined o left right).tree).eval b.scope .standard =
      (Expr.ofTree left.tree).eval b.scope .standard >>= fun v =>
        (Expr.ofTree right.tree).eval b.scope .standard >>= fun w => settled (o.apply v w) := by
  cases o <;> rfl

/-- A plus is a call of `Number`, which leaves integers and doubles as they are. -/
theorem eval_positive {e : Arith} {v : Value} (number : Expr.IsNumber v)
    (h : (Expr.ofTree e.tree).eval b.scope .standard = pure v) :
    (Expr.ofTree (Arith.positive e).tree).eval b.scope .standard = pure v := by
  have called : (Expr.ofTree (Arith.positive e).tree).eval b.scope .standard =
      evalAll b.scope .standard [Expr.ofTree e.tree] >>= invoke b.scope .standard ["Number"] := rfl
  have argument : evalAll b.scope .standard [Expr.ofTree e.tree] = pure [v] := by
    rw [evalAll, h]
    rfl
  rw [called, argument, pure_bind]
  cases v with
  | int n | float x => rfl
  | _ => cases number

/-- An arithmetic expression evaluates to its outcome. -/
theorem exists_outcome (e : Arith) :
    ∃ v, (Expr.ofTree e.tree).eval b.scope .standard = pure v ∧ e.Outcome v := by
  induction e with
  | int n => exact ⟨.int n, rfl, .int (within_int n) rfl⟩
  | positive e ih =>
    obtain ⟨v, evaluated, outcome⟩ := ih
    refine ⟨v, eval_positive b outcome.isNumber evaluated, ?_⟩
    cases outcome with
    | int within exact => exact .int ((within_positive_iff e).mpr within) exact
    | float beyond => exact .float (mt (within_positive_iff e).mp beyond)
  | negative e ih =>
    obtain ⟨v, evaluated, outcome⟩ := ih
    have negated : (Expr.ofTree (Arith.negative e).tree).eval b.scope .standard =
        (Expr.ofTree e.tree).eval b.scope .standard >>= fun v => pure (negValue v) := rfl
    exact ⟨negValue v, by rw [negated, evaluated, pure_bind], outcome.negative⟩
  | joined o left right first second =>
    obtain ⟨v, evaluated, outcome⟩ := first
    obtain ⟨w, evaluated', outcome'⟩ := second
    obtain ⟨u, result, outcome⟩ := outcome.joined o outcome'
    refine ⟨u, ?_, outcome⟩
    rw [eval_joined, evaluated, evaluated', pure_bind, pure_bind, result]
    rfl

end Evaluation

/-- The operators that are arithmetic. -/
theorem isOperator_iff (o : Operator) :
    o ∈ [.plus, .minus, .times, .slash, .percent] ↔ ∃ a : ArithmeticOp, a.operator = o := by
  constructor
  · intro mem
    simp only [List.mem_cons, List.not_mem_nil, or_false] at mem
    rcases mem with rfl | rfl | rfl | rfl | rfl
    exacts [⟨.sum, rfl⟩, ⟨.difference, rfl⟩, ⟨.product, rfl⟩, ⟨.quotient, rfl⟩, ⟨.remainder, rfl⟩]
  · rintro ⟨a, rfl⟩
    cases a <;> decide

/-- The tokens of arithmetic expressions: integers of 64 bits, round brackets, operators. -/
def IsToken : Token → Prop
  | .number (.int _) | .opening .round | .closing .round => True
  | .op o => ∃ a : ArithmeticOp, a.operator = o
  | _ => False

instance : DecidablePred IsToken
  | .number (.int _) | .opening .round | .closing .round => .isTrue trivial
  | .op o => decidable_of_iff (o ∈ [.plus, .minus, .times, .slash, .percent]) (isOperator_iff o)
  | .number (.big _) | .number (.float _) | .opening .square | .closing .square | .text _
  | .name _ => .isFalse not_false

/-- Arithmetic expressions are not called. -/
theorem callTree?_tree (e : Arith) (args : List Json) : callTree? e.tree args = none := by
  cases e with
  | joined o left right => cases o <;> rfl
  | _ => rfl

/-- Expressions of these tokens are arithmetic. -/
theorem exists_of_derives {p : Phrase} {n : Nat} {ts : List Token} {t : Json}
    (derivation : Derives p n ts t) (tokens : ∀ token ∈ ts, IsToken token) (single : p ≠ .items) :
    ∃ e : Arith, t = e.tree := by
  induction derivation with
  | plain _ ih | operand _ ih | stronger _ ih | suffixed _ ih | primary _ ih =>
    exact ih tokens nofun
  | joined _ _ _ left right =>
    obtain ⟨ofLeft, ofSelf, ofRight⟩ := List.forall_mem_append.mp tokens |>.imp_right
      List.forall_mem_cons.mp
    obtain ⟨a, rfl⟩ := ofSelf
    obtain ⟨l, rfl⟩ := left ofLeft nofun
    obtain ⟨r, rfl⟩ := right ofRight nofun
    exact ⟨.joined a l r, rfl⟩
  | sign known _ ih =>
    obtain ⟨⟨a, rfl⟩, ofOperand⟩ := List.forall_mem_cons.mp tokens
    obtain ⟨e, rfl⟩ := ih ofOperand nofun
    cases a with
    | sum =>
      cases known
      exact ⟨.positive e, rfl⟩
    | difference =>
      cases known
      exact ⟨.negative e, rfl⟩
    | _ => cases known
  | grouped _ ih =>
    have inner := (List.forall_mem_append.mp (List.forall_mem_cons.mp tokens).2).1
    exact ih inner nofun
  | call _ _ known base _ =>
    obtain ⟨e, rfl⟩ := base (List.forall_mem_append.mp tokens).1 nofun
    rw [callTree?_tree] at known
    cases known
  | number n =>
    cases n with
    | int n => exact ⟨.int n, rfl⟩
    | _ => exact (tokens _ List.mem_cons_self).elim
  | choice => exact absurd (tokens (.op .question) (by simp)) (by decide)
  | member => exact absurd (tokens (.op .dot) (by simp)) (by decide)
  | computed => exact (tokens (.opening .square) (by simp)).elim
  | list => exact (tokens _ List.mem_cons_self).elim
  | text s => exact (tokens _ List.mem_cons_self).elim
  | name s => exact (tokens _ List.mem_cons_self).elim
  | none | one | more => exact absurd rfl single

end Arith

namespace Compiled

/-- Integer arithmetic is exact or leaves the integers. A compiled snippet made of
integers of 64 bits, round brackets, arithmetic operators and signs is read as an arithmetic
expression. With the standard functions and any bindings it evaluates to an integer if and
only if every part of the expression has an exact value of 64 bits, and then to the exact
value of the expression; it evaluates to an integer or a double in any case. -/
theorem evaluate_arithmetic {source : String} {c : Compiled}
    (tokens : ∀ token ∈ (tokenize source.toList).tokens, Arith.IsToken token)
    (compiled : Compiled.ofText source = .ok (.ok c)) :
    (∃ e : Arith, read source = .ok e.tree) ∧
      ∀ (e : Arith) (b : Bindings), read source = .ok e.tree →
        ((∃ n, c.evaluate .standard b.scope = .ok (.int n)) ↔
            ∀ part ∈ e.parts, ∃ n, part.exact = some n ∧ Whole.Fits n) ∧
          (∀ n, c.evaluate .standard b.scope = .ok (.int n) → e.exact = some n.toInt) ∧
          ((∃ n, c.evaluate .standard b.scope = .ok (.int n)) ∨
            ∃ x, c.evaluate .standard b.scope = .ok (.float x)) := by
  obtain ⟨tree, found, -, folded⟩ := exists_of_ofText compiled
  obtain ⟨-, -, n, -, derivation⟩ := accepted_of_treeOf found
  obtain ⟨e, rfl⟩ := Arith.exists_of_derives derivation tokens nofun
  refine ⟨⟨e, found⟩, fun e' b found' => ?_⟩
  rw [← Except.ok.inj (found'.symm.trans found)] at folded
  obtain ⟨v, evaluated, outcome⟩ := e'.exists_outcome b
  have result : c.evaluate .standard b.scope = .ok v :=
    evaluate_of_eval ((Expr.eval_fold (smallSums_of_read found') folded).trans evaluated)
  rw [result]
  cases outcome with
  | @int n within exact =>
    refine ⟨⟨fun _ => within, fun _ => ⟨n, rfl⟩⟩, fun k same => ?_, .inl ⟨n, rfl⟩⟩
    cases same
    exact exact
  | @float x beyond =>
    exact ⟨⟨fun ⟨_, same⟩ => (nomatch same), fun within => absurd within beyond⟩,
      fun _ same => (nomatch same), .inr ⟨x, rfl⟩⟩

/-- Whether a text compiles to a snippet that evaluates to an integer without bindings. -/
def givesInt (source : String) (n : Int64) : Bool :=
  match Compiled.ofText source with
  | .ok (.ok c) =>
    match c.evaluate .standard (Bindings.scope ⟨[]⟩) with
    | .ok (.int k) => k == n
    | _ => false
  | _ => false

/-- What gives an integer was compiled and evaluated to it. -/
theorem exists_of_givesInt {source : String} {n : Int64} (h : givesInt source n = true) :
    ∃ c, Compiled.ofText source = .ok (.ok c) ∧
      c.evaluate .standard (Bindings.scope ⟨[]⟩) = .ok (.int n) := by
  unfold givesInt at h
  split at h
  · rename_i c made
    split at h
    · rename_i k result
      obtain rfl := beq_iff_eq.mp h
      exact ⟨c, made, result⟩
    · cases h
  · cases h

/-- The remainder of minus seven by half of six is the exact one, minus one. -/
theorem evaluate_arithmetic_remainder : ∃ (c : Compiled) (e : Arith),
    (∀ token ∈ (tokenize "-7 % (6 / 2)".toList).tokens, Arith.IsToken token) ∧
      Compiled.ofText "-7 % (6 / 2)" = .ok (.ok c) ∧ read "-7 % (6 / 2)" = .ok e.tree ∧
      c.evaluate .standard (Bindings.scope ⟨[]⟩) = .ok (.int (-1)) ∧
      (∀ part ∈ e.parts, ∃ n, part.exact = some n ∧ Whole.Fits n) ∧ e.exact = some (-1) := by
  have tokens : ∀ token ∈ (tokenize "-7 % (6 / 2)".toList).tokens, Arith.IsToken token := by
    decide +kernel
  have computed : givesInt "-7 % (6 / 2)" (-1) = true := by decide +kernel
  obtain ⟨c, made, result⟩ := exists_of_givesInt computed
  obtain ⟨⟨e, found⟩, exact⟩ := evaluate_arithmetic tokens made
  obtain ⟨integer, value, -⟩ := exact e ⟨[]⟩ found
  exact ⟨c, e, tokens, made, found, result, integer.mp ⟨_, result⟩, value _ result⟩

end Compiled

end DerivedTags.Snippet
