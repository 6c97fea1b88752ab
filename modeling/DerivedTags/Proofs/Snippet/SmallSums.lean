import DerivedTags.Proofs.Snippet.Acceptance
import DerivedTags.Proofs.Snippet.Overflow

/-!
# Sums in what was read

An operator tree may hold sums of any number of operands. The reader joins two
sides at a time, so that in what was read no sum has more than two.
-/

namespace DerivedTags.Snippet

namespace Expr

/-- No sum in the expression has more than two operands. -/
def SmallSums (e : Expr) : Prop := ∀ args, Occurs (.add args) e → args.length ≤ 2

/-- Operands of an expression with small sums have small sums. -/
theorem SmallSums.of_mem {e operand : Expr} (small : SmallSums e) (mem : operand ∈ e.operands) :
    SmallSums operand :=
  fun args occurs => small args (.inside mem occurs)

/-- An expression has small sums if its operands have and it is none that is too
large. -/
theorem SmallSums.of_operands {e : Expr} (self : ∀ args, e = .add args → args.length ≤ 2)
    (inside : ∀ operand ∈ e.operands, SmallSums operand) : SmallSums e := by
  intro args occurs
  cases occurs with
  | self => exact self args rfl
  | inside mem h => exact inside _ mem args h

/-- A literal has small sums. -/
theorem smallSums_literal (v : Value) : SmallSums (.literal v) :=
  .of_operands (fun args same => by cases same) (fun operand mem => by cases mem)

/-- A member path has small sums. -/
theorem smallSums_var (path : Path) : SmallSums (.var path) :=
  .of_operands (fun args same => by cases same) (fun operand mem => by cases mem)

/-- A list of expressions with small sums has small sums. -/
theorem smallSums_list {es : List Expr} (inside : ∀ e ∈ es, SmallSums e) : SmallSums (.list es) :=
  .of_operands (fun args same => by cases same) inside

/-- A call with arguments with small sums has small sums. -/
theorem smallSums_call {path : Path} {es : List Expr} (inside : ∀ e ∈ es, SmallSums e) :
    SmallSums (.call path es) :=
  .of_operands (fun args same => by cases same) inside

/-- The tree of an operator between two operands has small sums. -/
theorem smallSums_joined (o : Operator) {l r : Json} (left : SmallSums (ofTree l))
    (right : SmallSums (ofTree r)) : SmallSums (ofTree (.arr [.str o.text, l, r])) := by
  have both : ∀ e ∈ [ofTree l, ofTree r], SmallSums e := by
    intro e mem
    rcases List.mem_cons.mp mem with rfl | mem
    · exact left
    · rw [List.mem_singleton.mp mem]
      exact right
  have first : ∀ e ∈ [ofTree l], SmallSums e := fun e mem => both e (by simp_all)
  cases o
  case bang => exact .of_operands (fun args same => by cases same) first
  case plus => exact .of_operands (fun args same => by cases same; exact Nat.le_refl 2) both
  all_goals exact .of_operands (fun args same => by cases same) both

/-- The tree of a sign has small sums if its operand has. -/
theorem smallSums_sign {o : Operator} {t signedTree : Json}
    (known : signTree? o t = some signedTree) (small : SmallSums (ofTree t)) :
    SmallSums (ofTree signedTree) := by
  have single : ∀ e ∈ [ofTree t], SmallSums e := by
    intro e mem
    rw [List.mem_singleton.mp mem]
    exact small
  unfold signTree? at known
  split at known <;> cases known
  · exact .of_operands (fun args same => by cases same) single
  · exact .of_operands (fun args same => by cases same) single
  · exact smallSums_call single

/-- The expression of a looked-up member. -/
theorem ofTree_get (base key : Json) :
    ofTree (.arr [.str "get", base, key]) = .get (ofTree base) (ofTree key) := rfl

/-- The expression of a choice. -/
theorem ofTree_if (condition yes no : Json) :
    ofTree (.arr [.str "if", condition, yes, no]) =
      .ifElse (ofTree condition) (ofTree yes) (ofTree no) := rfl

/-- The tree of a member has small sums if what it is a member of and its key have. -/
theorem smallSums_member {base key : Json} (small : SmallSums (ofTree base))
    (smallKey : SmallSums (ofTree key)) : SmallSums (ofTree (memberTree base key)) := by
  rcases memberTree_cases base key with ⟨path, segment, -, -, grown⟩ | lookup
  · rw [grown]
    exact smallSums_var _
  · rw [lookup, ofTree_get]
    refine .of_operands (fun args same => by cases same) fun e mem => ?_
    have either : e = ofTree base ∨ e = ofTree key := by
      simpa only [operands, List.mem_cons, List.not_mem_nil, or_false] using mem
    rcases either with rfl | rfl
    · exact small
    · exact smallKey

/-- The expressions of several trees have small sums if each tree has. -/
theorem smallSums_ofTrees {trees : List Json} (each : ∀ t ∈ trees, SmallSums (ofTree t)) :
    ∀ e ∈ ofTrees trees, SmallSums e := by
  rw [ofTrees_eq_map]
  exact List.forall_mem_map.mpr each

/-- The tree of a call has small sums if what is called and the arguments have. -/
theorem smallSums_callTree? {callee called : Json} {args : List Json}
    (known : callTree? callee args = some called) (small : SmallSums (ofTree callee))
    (smallArgs : ∀ arg ∈ args, SmallSums (ofTree arg)) : SmallSums (ofTree called) := by
  have each := smallSums_ofTrees smallArgs
  rcases callTree?_cases known with ⟨path, rfl, rfl⟩ | ⟨receiver, name, rfl, rfl⟩
  · exact smallSums_call each
  · refine .of_operands (fun args same => by cases same) fun e mem => ?_
    rcases List.mem_cons.mp mem with rfl | mem
    · exact small.of_mem List.mem_cons_self
    · exact each e mem

/-- The tree of a name has small sums. -/
theorem smallSums_nameTree (s : String) : SmallSums (ofTree (nameTree s)) := by
  unfold nameTree
  repeat' split
  · exact smallSums_literal _
  · exact smallSums_literal _
  · exact smallSums_literal _
  · exact smallSums_literal _
  · exact smallSums_var _

/-- Wherever a tree is put together, sums stay small. -/
theorem keptByGrammar_smallSums : KeptByGrammar fun t => SmallSums (ofTree t) where
  number n := smallSums_literal _
  text s := smallSums_literal _
  name := smallSums_nameTree
  choice {condition yes no} first second third := by
    rw [ofTree_if]
    refine .of_operands (fun args same => by cases same) fun e mem => ?_
    have either : e = ofTree condition ∨ e = ofTree yes ∨ e = ofTree no := by
      simpa only [operands, List.mem_cons, List.not_mem_nil, or_false] using mem
    rcases either with rfl | rfl | rfl
    · exact first
    · exact second
    · exact third
  joined _ left right := smallSums_joined _ left right
  sign := smallSums_sign
  member := smallSums_member
  call := smallSums_callTree?
  list each := smallSums_list (smallSums_ofTrees each)

end Expr

open DerivedTags.Snippet.Expr

/-- In what was read no sum has more than two operands. -/
theorem smallSums_of_read {source : String} {tree : Json} (h : read source = .ok tree) :
    SmallSums (ofTree tree) := by
  obtain ⟨-, -, n, -, derivation⟩ := accepted_of_treeOf h
  exact derivation.each keptByGrammar_smallSums

end DerivedTags.Snippet
