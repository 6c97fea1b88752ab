import DerivedTags.Proofs.Json.DepthLimit
import DerivedTags.Proofs.Snippet.Acceptance
import DerivedTags.Proofs.Snippet.ConstantFolding

/-!
# How deep expressions nest

An operator of a tree is one level of the tree, and operands that are filled in where the
tree has none stand no deeper than others. Folding puts expressions together from folded
operands, so that nothing gets deeper. What is compiled is never deeper than the limit: a
tree by the walk that refuses deeper ones, a text by the count that the reader keeps.
-/

namespace DerivedTags.Snippet

namespace Expr

/-- An expression stands in another one, below a number of operators. -/
inductive Under (inner : Expr) : Nat → Expr → Prop where
  /-- An expression stands below no operator of its own. -/
  | self : Under inner 0 inner
  /-- What stands in an operand stands below one operator more in the whole. -/
  | inside {n : Nat} {outer operand : Expr} (mem : operand ∈ outer.operands)
      (under : Under inner n operand) : Under inner (n + 1) outer

/-- What stands below a number of operators occurs. -/
theorem Under.occurs {inner outer : Expr} {n : Nat} (under : Under inner n outer) :
    Occurs inner outer := by
  induction under with
  | self => exact .self
  | inside mem _ ih => exact .inside mem ih

/-- What occurs stands below a number of operators. -/
theorem Occurs.exists_under {inner outer : Expr} (occurs : Occurs inner outer) :
    ∃ n, Under inner n outer := by
  induction occurs with
  | self => exact ⟨0, .self⟩
  | inside mem _ ih =>
    obtain ⟨n, under⟩ := ih
    exact ⟨n + 1, .inside mem under⟩

/-- An operand that is picked by its position is one of the operands or filled in. -/
theorem operand_mem_or (args : List Expr) (i : Nat) :
    operand args i ∈ args ∨ operand args i = .literal .undefined := by
  rw [operand, List.getD_eq_getElem?_getD]
  rcases within : args[i]? with _ | e
  · exact .inr rfl
  · exact .inl (List.mem_of_getElem? within)

/-- The operands of an operator are among those it is given, or filled in. -/
theorem mem_operands_ofOperator {op : String} {raw : List Json} {args : List Expr} {o : Expr}
    (mem : o ∈ (ofOperator op raw args).operands) : o ∈ args ∨ o = .literal .undefined := by
  have picked (i : Nat) (same : o = operand args i) : o ∈ args ∨ o = .literal .undefined :=
    same ▸ operand_mem_or args i
  have dropped (i : Nat) (later : o ∈ args.drop i) : o ∈ args ∨ o = .literal .undefined :=
    .inl (List.mem_of_mem_drop later)
  unfold ofOperator at mem
  split at mem
  case h_23 =>
    split at mem
    · simp only [operands, List.mem_cons, List.not_mem_nil, or_false] at mem
      rcases mem with rfl | rfl | rfl <;> simp
    · simp only [operands, List.mem_cons, List.not_mem_nil, or_false] at mem
      exact mem.elim (picked 0) (picked 1)
  all_goals simp only [operands, List.mem_cons, List.not_mem_nil, or_false] at mem
  all_goals first
    | exact .inl mem
    | exact picked 0 mem
    | exact mem.elim (picked 0) (picked 1)
    | exact dropped 1 mem
    | exact mem.elim (picked 0) (dropped 2)

/-- An operator in a tree has the expressions of its operands for operands, or filled in
ones. Whatever else stands in a tree has none. -/
theorem mem_operands_ofTree {t : Json} {o : Expr} (mem : o ∈ (ofTree t).operands) :
    ∃ op raw, t = .arr (.str op :: raw) ∧
      ((∃ r ∈ raw, o = ofTree r) ∨ o = .literal .undefined) := by
  unfold ofTree at mem
  split at mem
  · rename_i op raw
    refine ⟨op, raw, rfl, (mem_operands_ofOperator mem).imp_left fun among => ?_⟩
    rw [ofTrees_eq_map] at among
    obtain ⟨r, rmem, same⟩ := List.mem_map.mp among
    exact ⟨r, rmem, same.symm⟩
  all_goals exact nomatch mem

/-- An expression nests no deeper than its tree: an operator is a level of the tree, and
one that is filled in stands on the level of the operands. -/
theorem Under.le_depth {inner : Expr} {n : Nat} {t : Json} (under : Under inner n (ofTree t)) :
    n ≤ t.depth := by
  generalize whole : ofTree t = e at under
  induction under generalizing t with
  | self => exact Nat.zero_le _
  | @inside n outer operand mem deeper ih =>
    subst whole
    obtain ⟨op, raw, rfl, ⟨r, rmem, rfl⟩ | rfl⟩ := mem_operands_ofTree mem
    · have level := ih rfl
      have below : r.depth ≤ Json.depthOfItems raw := Json.depth_le_depthOfItems rmem
      simp only [Json.depth, Json.depthOfItems]
      omega
    · cases deeper with
      | self =>
        simp only [Json.depth]
        omega
      | inside mem _ => cases mem

/-- A folded sum has no operands but those it is made of. -/
theorem mem_operands_foldAdd {es : List Expr} {o : Expr} (mem : o ∈ (foldAdd es).operands) :
    o ∈ es := by
  unfold foldAdd at mem
  repeat' split at mem
  · exact nomatch mem
  · exact nomatch mem
  · exact mem

/-- A folded product has no operands but those it is made of. -/
theorem mem_operands_foldMul {es : List Expr} {o : Expr} (mem : o ∈ (foldMul es).operands) :
    o ∈ es := by
  unfold foldMul at mem
  split at mem
  · exact nomatch mem
  · exact mem

/-- A folded negative has no operand but the one it is made of. -/
theorem mem_operands_foldNeg {e o : Expr} (mem : o ∈ (foldNeg e).operands) : o ∈ [e] := by
  unfold foldNeg at mem
  split at mem
  · split at mem
    · exact nomatch mem
    · exact mem
  · exact nomatch mem
  · exact mem

/-- A folded operator with two operands has no others. -/
theorem mem_operands_foldBinary {op : BinaryOp} {left right folded o : Expr}
    (h : foldBinary op left right = .ok folded) (mem : o ∈ folded.operands) :
    o ∈ [left, right] := by
  unfold foldBinary at h
  split at h
  · split at h
    · cases h
      exact mem
    · obtain ⟨n, -, rfl⟩ := exists_of_map_eq_ok h
      exact nomatch mem
  · cases h
    exact mem

/-- An expression that is put together again has no operands but those it is made of. -/
theorem mem_operands_rebuild {e folded o : Expr} {es : List Expr}
    (complete : es.length = e.operands.length) (h : e.rebuild es = .ok folded)
    (mem : o ∈ folded.operands) : o ∈ es := by
  cases e with
  | literal v | var p =>
    cases h
    exact nomatch mem
  | list _ | and _ | or _ | call _ _ =>
    cases h
    exact mem
  | add _ =>
    cases h
    exact mem_operands_foldAdd mem
  | mul _ =>
    cases h
    exact mem_operands_foldMul mem
  | get _ _ | coalesce _ _ | onlyIf _ _ =>
    obtain ⟨a, b, rfl⟩ := List.length_eq_two.mp complete
    cases h
    exact mem
  | binary op _ _ =>
    obtain ⟨a, b, rfl⟩ := List.length_eq_two.mp complete
    exact mem_operands_foldBinary h mem
  | neg _ =>
    obtain ⟨a, rfl⟩ := List.length_eq_one_iff.mp complete
    cases h
    exact mem_operands_foldNeg mem
  | not _ =>
    obtain ⟨a, rfl⟩ := List.length_eq_one_iff.mp complete
    cases h
    exact mem
  | ifElse _ _ _ =>
    obtain ⟨a, b, c, rfl⟩ := List.length_eq_three.mp complete
    cases h
    exact mem
  | method _ _ _ =>
    cases es with
    | nil => cases complete
    | cons a rest =>
      cases h
      exact mem

/-- Several expressions are folded one by one: there are as many as before, and each one
comes from one of them. -/
theorem each_of_foldAll {es folded : List Expr} (h : foldAll es = .ok folded) :
    folded.length = es.length ∧ ∀ o' ∈ folded, ∃ o ∈ es, fold o = .ok o' := by
  induction es generalizing folded with
  | nil =>
    cases h
    exact ⟨rfl, fun _ mem => nomatch mem⟩
  | cons e rest ih =>
    rw [foldAll] at h
    obtain ⟨e', first, h⟩ := bind_eq_ok_iff.mp h
    obtain ⟨others, onward, h⟩ := bind_eq_ok_iff.mp h
    cases h
    obtain ⟨length, each⟩ := ih onward
    refine ⟨congrArg (· + 1) length, fun o' mem => ?_⟩
    rcases List.mem_cons.mp mem with rfl | later
    · exact ⟨e, List.mem_cons_self, first⟩
    · obtain ⟨o, omem, same⟩ := each o' later
      exact ⟨o, List.mem_cons_of_mem e omem, same⟩

/-- What stands in a folded expression is folded from what stood as deep before. -/
theorem Under.of_fold {inner e folded : Expr} {n : Nat} (under : Under inner n folded)
    (h : fold e = .ok folded) : ∃ before, fold before = .ok inner ∧ Under before n e := by
  induction under generalizing e with
  | self => exact ⟨e, h, .self⟩
  | inside mem deeper ih =>
    rw [fold_eq_bind_rebuild] at h
    obtain ⟨es, each, rebuilt⟩ := bind_eq_ok_iff.mp h
    obtain ⟨complete, origin⟩ := each_of_foldAll each
    obtain ⟨o, omem, same⟩ := origin _ (mem_operands_rebuild complete rebuilt mem)
    obtain ⟨before, made, below⟩ := ih same
    exact ⟨before, made, .inside omem below⟩

end Expr

namespace Compiled

/-- What an expression of the compiled trees nests, its tree nests too. -/
theorem le_depth_of_compile {tree : Json} {e inner : Expr} {n : Nat}
    (h : Expr.compile tree = .ok e) (under : Expr.Under inner n e) : n ≤ tree.depth := by
  obtain ⟨before, -, below⟩ := under.of_fold h
  exact below.le_depth

/-- A tree is refused exactly if it is deeper than the limit. -/
theorem ofTree_eq_tooDeep_iff (tree : Json) :
    Compiled.ofTree tree = .ok (.error .tooDeep) ↔ depthLimit < tree.depth := by
  rw [← Json.deeperThan_iff, Compiled.ofTree]
  split
  · rename_i deep
    exact iff_of_true rfl deep
  · rename_i shallow
    refine iff_of_false (fun refused => ?_) shallow
    obtain ⟨e, -, same⟩ := Expr.exists_of_map_eq_ok refused
    cases same

/-- A tree that was compiled is one of limited depth. -/
theorem exists_of_ofTree {tree : Json} {c : Compiled} (h : Compiled.ofTree tree = .ok (.ok c)) :
    tree.depth ≤ depthLimit ∧ Expr.compile tree = .ok c.expr := by
  unfold Compiled.ofTree at h
  split at h
  · cases h
  · rename_i shallow
    obtain ⟨e, compiled, same⟩ := Expr.exists_of_map_eq_ok h
    cases same
    exact ⟨Nat.le_of_not_lt (mt (Json.deeperThan_iff tree depthLimit).mpr shallow), compiled⟩

/-- A text that was compiled was read as a tree of limited depth. -/
theorem exists_of_ofText {source : String} {c : Compiled}
    (h : Compiled.ofText source = .ok (.ok c)) :
    ∃ tree, read source = .ok tree ∧ tree.depth ≤ depthLimit ∧
      Expr.compile tree = .ok c.expr := by
  unfold Compiled.ofText at h
  split at h
  · cases h
  · rename_i tree found
    obtain ⟨e, compiled, same⟩ := Expr.exists_of_map_eq_ok h
    cases same
    exact ⟨tree, found, (accepted_of_treeOf found).2.1, compiled⟩

/-- The gate against deep nesting. The walk over the stack finds a tree to exceed a limit
exactly if its depth does. What is read has no more levels than the limit, so that reading
a text yields no tree that would be refused as too deep, and every other tree is refused
exactly if it is deeper. What is compiled, be it from a text or from a tree, has at most
as many operators above anything that stands in it, however constants were folded and
operands filled in. -/
theorem depth_gate :
    (∀ (tree : Json) (limit : Nat), tree.deeperThan limit = true ↔ limit < tree.depth) ∧
      (∀ source tree, read source = .ok tree →
        tree.depth ≤ 64 ∧ Compiled.ofTree tree ≠ .ok (.error .tooDeep)) ∧
      (∀ tree, Compiled.ofTree tree = .ok (.error .tooDeep) ↔ 64 < tree.depth) ∧
      ∀ c, ((∃ source, Compiled.ofText source = .ok (.ok c)) ∨
          ∃ tree, Compiled.ofTree tree = .ok (.ok c)) →
        ∀ n inner, Expr.Under inner n c.expr → n ≤ 64 := by
  refine ⟨Json.deeperThan_iff, fun source tree found => ?_, ofTree_eq_tooDeep_iff, ?_⟩
  · have shallow : tree.depth ≤ depthLimit := (accepted_of_treeOf found).2.1
    exact ⟨shallow, mt (ofTree_eq_tooDeep_iff tree).mp (Nat.not_lt_of_le shallow)⟩
  · rintro c (⟨source, made⟩ | ⟨tree, made⟩) n inner under
    · obtain ⟨tree, -, shallow, compiled⟩ := exists_of_ofText made
      exact (le_depth_of_compile compiled under).trans shallow
    · obtain ⟨shallow, compiled⟩ := exists_of_ofTree made
      exact (le_depth_of_compile compiled under).trans shallow

/-- Negatives in one another, around a null. -/
def negatives : Nat → Json
  | 0 => .null
  | n + 1 => .arr [.str "neg", negatives n]

/-- Each negative is a level. -/
theorem depth_negatives (n : Nat) : (negatives n).depth = n := by
  induction n with
  | zero => rfl
  | succ n ih =>
    simp only [negatives, Json.depth, Json.depthOfItems, ih]
    omega

/-- The negative of a name is read and compiled within the limit, and 65 negatives in one
another are refused. -/
theorem depth_gate_negatives :
    read "-x" = .ok (.arr [.str "neg", .arr [.str "var", .str "x"]]) ∧
      Compiled.ofTree (.arr [.str "neg", .arr [.str "var", .str "x"]]) ≠
        .ok (.error .tooDeep) ∧
      Compiled.ofTree (negatives 65) = .ok (.error .tooDeep) ∧
      ∃ c, Compiled.ofText "-x" = .ok (.ok c) ∧
        ∀ n inner, Expr.Under inner n c.expr → n ≤ 64 := by
  have found : read "-x" = .ok (.arr [.str "neg", .arr [.str "var", .str "x"]]) := rfl
  have made : Compiled.ofText "-x" = .ok (.ok ⟨"-x", .neg (.var ["x"])⟩) := by
    rw [Compiled.ofText, found]
    rfl
  have deep : 64 < (negatives 65).depth := by
    rw [depth_negatives]
    decide
  exact ⟨found, (depth_gate.2.1 _ _ found).2, (depth_gate.2.2.1 _).mpr deep,
    _, made, depth_gate.2.2.2 _ (.inl ⟨_, made⟩)⟩

end Compiled

end DerivedTags.Snippet
