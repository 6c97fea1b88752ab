import DerivedTags.Proofs.Snippet.Grammar

/-!
# Nodes and their depths

The reader keeps the depth of every subtree beside it. On the trees of the
grammar this is the depth of the tree, and the reader builds exactly the trees of
the grammar, as long as they stay within the limit.
-/

namespace DerivedTags.Snippet

open DerivedTags.Json (depthOfItems_append depth_le_depthOfItems)

/-- A tree with its depth. -/
def Node.of (t : Json) : Node := ⟨t, t.depth⟩

/-- A tree with its depth, if it stays within the limit. -/
def Node.checked (t : Json) : Except ReadError Node :=
  if depthLimit < t.depth then .error .tooDeep else .ok (.of t)

/-- A path is a list of scalars. -/
def Flat (t : Json) : Prop :=
  ∀ path, t = .arr (.str "var" :: path) → Json.depthOfItems path = 0

/-- A checked tree is the tree, and within the limit. -/
theorem checked_eq_ok_iff (t : Json) (node : Node) :
    Node.checked t = .ok node ↔ t.depth ≤ depthLimit ∧ node = .of t := by
  unfold Node.checked
  by_cases deep : depthLimit < t.depth
  · have beyond : ¬t.depth ≤ depthLimit := by omega
    rw [if_pos deep]
    exact iff_of_false (fun h => by cases h) (fun h => beyond h.1)
  · have within : t.depth ≤ depthLimit := by omega
    rw [if_neg deep, Except.ok.injEq]
    exact ⟨fun same => ⟨within, same.symm⟩, fun h => h.2.symm⟩

/-- A tree within the limit is checked. -/
theorem checked_of_le {t : Json} (within : t.depth ≤ depthLimit) :
    Node.checked t = .ok (.of t) :=
  (checked_eq_ok_iff t (.of t)).mpr ⟨within, rfl⟩

/-- The trees of nodes with their depths. -/
theorem map_tree_map_of (ts : List Json) : (ts.map Node.of).map Node.tree = ts := by
  simp only [List.map_map]
  exact List.map_id ts

/-- Operands with their depths are as deep as their trees. -/
theorem deepest_map_of (ts : List Json) : deepest (ts.map Node.of) = Json.depthOfItems ts := by
  induction ts with
  | nil => rfl
  | cons t rest ih =>
    have step : deepest ((t :: rest).map Node.of) = max t.depth (deepest (rest.map Node.of)) := rfl
    rw [step, ih, Json.depthOfItems]

/-- An operator over trees is checked. -/
theorem operator_of (name : String) (ts : List Json) :
    Node.operator name (ts.map .of) = Node.checked (.arr (.str name :: ts)) := by
  simp only [Node.operator, Node.checked, Node.of, deepest_map_of, map_tree_map_of, Json.depth,
    Json.depthOfItems, Nat.zero_max]

/-- A name in front of items is no path unless it says so. -/
theorem flat_operator {name : String} (other : name ≠ "var") (ts : List Json) :
    Flat (.arr (.str name :: ts)) := by
  intro path same
  simp only [Json.arr.injEq, List.cons.injEq, Json.str.injEq] at same
  exact absurd same.1 other

/-- A name on its own has its tree. -/
theorem ofName_eq (s : String) : Node.ofName s = .of (nameTree s) := by
  simp only [Node.ofName, nameTree, beq_iff_eq]
  split
  · rfl
  · split
    · rfl
    · split
      · rfl
      · split <;> rfl

/-- The tree of a name is within the limit. -/
theorem depth_nameTree (s : String) : (nameTree s).depth ≤ depthLimit := by
  unfold nameTree
  repeat' split
  all_goals simp [Json.depth, Json.depthOfItems, depthLimit]

/-- The tree of a name is flat. -/
theorem flat_nameTree (s : String) : Flat (nameTree s) := by
  unfold nameTree
  intro path same
  repeat' split at same
  all_goals simp at same
  rw [← same]
  rfl

/-- A key that is known is a scalar. -/
theorem depth_of_staticKey? {key : Json} {segment : String}
    (known : staticKey? key = some segment) : key.depth = 0 := by
  cases key with
  | arr xs => cases known
  | obj ms => cases known
  | null | bool b | num n | str s => rfl

/-- The tree of a member is a path that grew, or a lookup. -/
theorem memberTree_cases (base key : Json) :
    (∃ path segment, base = .arr (.str "var" :: path) ∧ staticKey? key = some segment ∧
        memberTree base key = .arr (.str "var" :: (path ++ [.str segment]))) ∨
      memberTree base key = .arr [.str "get", base, key] := by
  unfold memberTree
  split
  · rename_i path segment known
    exact .inl ⟨path, segment, rfl, known, rfl⟩
  · exact .inr rfl

/-- A member of an expression has its tree, and is checked. -/
theorem member_of {base : Json} (flat : Flat base) (key : Json) :
    (Node.of base).member (.of key) = Node.checked (memberTree base key) := by
  simp only [Node.member, Node.of]
  split
  · rename_i path segment known
    have grown : memberTree (.arr (.str "var" :: path)) key =
        .arr (.str "var" :: (path ++ [.str segment])) := by
      simp only [memberTree, known]
    have depth : (Json.arr (.str "var" :: (path ++ [.str segment]))).depth = 1 := by
      simp [Json.depth, Json.depthOfItems, depthOfItems_append, flat path rfl]
    rw [grown, checked_of_le (by rw [depth]; decide), Node.of, depth]
    rfl
  · rename_i base _ _ other
    rcases memberTree_cases base key with ⟨path, segment, same, known, -⟩ | lookup
    · exact (other path segment same known).elim
    · rw [lookup]
      exact operator_of "get" [base, key]

/-- Members of flat trees are flat. -/
theorem flat_memberTree {base : Json} (flat : Flat base) (key : Json) :
    Flat (memberTree base key) := by
  rcases memberTree_cases base key with ⟨path, segment, rfl, known, grown⟩ | lookup
  · rw [grown]
    intro longer same
    simp only [Json.arr.injEq, List.cons.injEq, true_and] at same
    rw [← same, depthOfItems_append, flat path rfl]
    rfl
  · rw [lookup]
    exact flat_operator (by decide) _

/-- A member is at least as deep as what it is a member of, and as its key. -/
theorem depth_le_memberTree (base key : Json) :
    base.depth ≤ (memberTree base key).depth ∧ key.depth ≤ (memberTree base key).depth := by
  rcases memberTree_cases base key with ⟨path, segment, rfl, known, grown⟩ | lookup
  · rw [grown, depth_of_staticKey? known]
    simp only [Json.depth, Json.depthOfItems, depthOfItems_append]
    omega
  · rw [lookup]
    simp only [Json.depth, Json.depthOfItems]
    omega

/-- What is called is a path or was looked up under a text. -/
theorem callTree?_cases {callee called : Json} {args : List Json}
    (known : callTree? callee args = some called) :
    (∃ path, callee = .arr (.str "var" :: path) ∧
        called = .arr (.str "call" :: .arr path :: args)) ∨
      ∃ receiver name, callee = .arr [.str "get", receiver, .str name] ∧
        called = .arr (.str "method" :: receiver :: .str name :: args) := by
  unfold callTree? at known
  split at known
  · exact .inl ⟨_, rfl, (Option.some.inj known).symm⟩
  · exact .inr ⟨_, _, rfl, (Option.some.inj known).symm⟩
  · cases known

/-- Calls are flat. -/
theorem flat_callTree? {callee called : Json} {args : List Json}
    (known : callTree? callee args = some called) : Flat called := by
  rcases callTree?_cases known with ⟨path, rfl, rfl⟩ | ⟨receiver, name, rfl, rfl⟩
  · exact flat_operator (by decide) _
  · exact flat_operator (by decide) _

/-- A call is at least as deep as what is called, and as its arguments. -/
theorem depth_le_callTree? {callee called : Json} {args : List Json}
    (known : callTree? callee args = some called) :
    callee.depth ≤ called.depth ∧ ∀ arg ∈ args, arg.depth ≤ called.depth := by
  rcases callTree?_cases known with ⟨path, rfl, rfl⟩ | ⟨receiver, name, rfl, rfl⟩
  · simp only [Json.depth, Json.depthOfItems]
    refine ⟨by omega, fun arg mem => ?_⟩
    have := depth_le_depthOfItems mem
    omega
  · simp only [Json.depth, Json.depthOfItems]
    refine ⟨by omega, fun arg mem => ?_⟩
    have := depth_le_depthOfItems mem
    omega

/-- A call of an expression has its tree, and is checked. -/
theorem call_of {callee : Json} (flat : Flat callee) (args : List Json) :
    (Node.of callee).call (args.map .of) =
      match callTree? callee args with
      | some called => Node.checked called
      | none => .error .notCallable := by
  simp only [Node.call, Node.of]
  split
  · rename_i path
    have path_of : Node.ofScalars path = .of (.arr path) := by
      simp [Node.ofScalars, Node.of, Json.depth, flat path rfl]
    rw [path_of]
    exact operator_of "call" (.arr path :: args)
  · rename_i receiver name
    have depth : (Json.arr [.str "get", receiver, .str name]).depth - 1 = receiver.depth := by
      simp [Json.depth, Json.depthOfItems]
    rw [depth]
    exact operator_of "method" (receiver :: .str name :: args)
  · rename_i no_path no_lookup
    cases known : callTree? callee args with
    | none => rfl
    | some called =>
      rcases callTree?_cases known with ⟨path, same, -⟩ | ⟨receiver, name, same, -⟩
      · exact (no_path path same).elim
      · exact (no_lookup receiver name same).elim

/-- A sign in front of an operand has its tree, and is checked. -/
theorem signed_of {o : Operator} {t signedTree : Json} (known : signTree? o t = some signedTree) :
    signed o (.of t) = Node.checked signedTree := by
  unfold signTree? at known
  split at known <;> cases known
  · exact operator_of "!" [t]
  · exact operator_of "neg" [t]
  · exact operator_of "call" [.arr [.str "Number"], t]

/-- A sign is flat, and deeper than its operand. -/
theorem flat_signTree? {o : Operator} {t signedTree : Json}
    (known : signTree? o t = some signedTree) : Flat signedTree ∧ t.depth ≤ signedTree.depth := by
  unfold signTree? at known
  split at known <;> cases known
  all_goals
    refine ⟨flat_operator (by decide) _, ?_⟩
    simp only [Json.depth, Json.depthOfItems]
    omega

/-- Wherever a tree is put together, paths stay lists of scalars. -/
theorem keptByGrammar_flat : KeptByGrammar Flat where
  number n path same := by cases same
  text s path same := by cases same
  name := flat_nameTree
  choice _ _ _ := flat_operator (by decide) _
  joined {_ o _ _} _ _ _ := by
    have other : o.text ≠ "var" := by cases o <;> decide
    exact flat_operator other _
  sign known _ := (flat_signTree? known).1
  member ofBase _ := flat_memberTree ofBase _
  call known _ _ := flat_callTree? known
  list _ := flat_operator (by decide) _

/-- Every phrase other than items has a flat tree. -/
theorem Derives.flat {p : Phrase} {n : Nat} {ts : List Token} {t : Json}
    (derivation : Derives p n ts t) (single : p ≠ .items) : Flat t := by
  have each := derivation.each keptByGrammar_flat
  cases p with
  | items => exact absurd rfl single
  | whole | level | operand | suffixed | primary => exact each

end DerivedTags.Snippet
