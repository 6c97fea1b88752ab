import DerivedTags.Proofs.Snippet.Dependence
import DerivedTags.Proofs.Snippet.Levels

/-!
# What snippets see of bindings

A text names a binding where a path or a called path begins with it. The reader makes no
path that is empty, so that computed members only make paths longer, and a call looks for
its receiver at a path that begins like the called one. An evaluation therefore depends on
no binding that is not named.
-/

namespace DerivedTags.Snippet

/-- A name is the first segment of a path, or of a path that is called, in a tree. The
segments of a called path are no operands. -/
inductive Names (root : String) : Json → Prop where
  /-- A path begins with it. -/
  | var (path : List Json) : Names root (.arr (.str "var" :: .str root :: path))
  /-- A called path begins with it. -/
  | call (path args : List Json) :
      Names root (.arr (.str "call" :: .arr (.str root :: path) :: args))
  /-- An argument of a call names it. -/
  | argument {arg : Json} (callee : Json) {args : List Json} (mem : arg ∈ args)
      (names : Names root arg) : Names root (.arr (.str "call" :: callee :: args))
  /-- An operand of another operator names it. -/
  | operand {op : String} {t : Json} {operands : List Json} (other : op ∉ ["var", "call"])
      (mem : t ∈ operands) (names : Names root t) : Names root (.arr (.str op :: operands))

/-- Only a path that begins with a name names it. -/
theorem Names.of_var {root : String} {path : List Json}
    (names : Names root (.arr (.str "var" :: path))) : ∃ rest, path = .str root :: rest := by
  generalize whole : Json.arr (.str "var" :: path) = t at names
  cases names with
  | var rest =>
    simp only [Json.arr.injEq, List.cons.injEq, true_and] at whole
    exact ⟨rest, whole⟩
  | call | argument => simp at whole
  | operand other =>
    simp only [Json.arr.injEq, List.cons.injEq, Json.str.injEq] at whole
    exact absurd (whole.1 ▸ List.mem_cons_self) other

/-- An operator that is neither a path nor a call names what its operands name. -/
theorem Names.of_operator {root op : String} {operands : List Json}
    (names : Names root (.arr (.str op :: operands))) (other : op ∉ ["var", "call"]) :
    ∃ t ∈ operands, Names root t := by
  generalize whole : Json.arr (.str op :: operands) = t at names
  cases names with
  | var | call | argument =>
    simp only [Json.arr.injEq, List.cons.injEq, Json.str.injEq] at whole
    exact absurd (by simp [whole.1]) other
  | operand _ mem names =>
    simp only [Json.arr.injEq, List.cons.injEq] at whole
    exact ⟨_, whole.2 ▸ mem, names⟩

/-- A path that begins with one of some names. The empty path is none: anything could be
reached from it. -/
inductive Rooted (names : String → Prop) : Path → Prop where
  /-- The first segment is one of the names. -/
  | intro {root : String} (named : names root) (rest : Path) : Rooted names (root :: rest)

namespace Rooted

variable {names others : String → Prop} {p : Path}

/-- A path that begins with one of some names begins with one of more names. -/
theorem mono (more : ∀ root, names root → others root) (rooted : Rooted names p) :
    Rooted others p := by
  cases rooted with
  | intro named rest => exact .intro (more _ named) rest

/-- A path that goes on begins the same. -/
theorem append (rooted : Rooted names p) (inner : Path) : Rooted names (p ++ inner) := by
  cases rooted with
  | intro named rest => exact .intro named (rest ++ inner)

/-- So does a path without its last segment, if there is another one. -/
theorem dropLast (rooted : Rooted names p) (long : 2 ≤ p.length) : Rooted names p.dropLast := by
  cases rooted with
  | @intro root named rest =>
    cases rest with
    | nil =>
      simp only [List.length_singleton] at long
      omega
    | cons name rest => exact .intro named (name :: rest).dropLast

end Rooted

namespace Expr

/-- If an expression is a path or calls one, it begins with one of some names. -/
def Begins (names : String → Prop) : Expr → Prop
  | .var p | .call p _ => Rooted names p
  | _ => True

/-- All paths of an expression and all its called paths begin with one of some names. -/
def RootedIn (names : String → Prop) (e : Expr) : Prop :=
  ∀ inner, Occurs inner e → inner.Begins names

/-- What begins with one of some names begins with one of more names. -/
theorem Begins.mono {names others : String → Prop} (more : ∀ root, names root → others root)
    {e : Expr} (begins : e.Begins names) : e.Begins others := by
  cases e with
  | var p | call p args => exact Rooted.mono more begins
  | _ => exact trivial

namespace RootedIn

variable {names others : String → Prop} {e : Expr}

/-- What begins its paths with some names begins them with more names. -/
theorem mono (more : ∀ root, names root → others root) (rooted : e.RootedIn names) :
    e.RootedIn others :=
  fun inner occurs => (rooted inner occurs).mono more

/-- An operand begins its paths like the whole. -/
theorem of_mem {o : Expr} (rooted : e.RootedIn names) (mem : o ∈ e.operands) :
    o.RootedIn names :=
  fun inner occurs => rooted inner (.inside mem occurs)

/-- An expression begins its paths with the names if its operands do and it does itself. -/
theorem of_operands (begins : e.Begins names) (inside : ∀ o ∈ e.operands, o.RootedIn names) :
    e.RootedIn names := by
  intro inner occurs
  cases occurs with
  | self => exact begins
  | inside mem deeper => exact inside _ mem inner deeper

/-- A literal has no paths. -/
theorem literal (v : Value) : (Expr.literal v).RootedIn names :=
  of_operands trivial (fun _ mem => nomatch mem)

/-- A path begins with one of the names. -/
theorem var {p : Path} (rooted : Rooted names p) : (Expr.var p).RootedIn names :=
  of_operands rooted (fun _ mem => nomatch mem)

end RootedIn

/-- An expression begins its paths with names of its tree. -/
def SelfNamed (t : Json) : Prop := (ofTree t).RootedIn (Names · t)

/-- The tree of an operator that is neither a path nor a call names what its operands
name. -/
theorem selfNamed_operator {op : String} {operands : List Json}
    (plain : ∀ names, (ofTree (.arr (.str op :: operands))).Begins names)
    (other : op ∉ ["var", "call"]) (each : ∀ t ∈ operands, SelfNamed t) :
    SelfNamed (.arr (.str op :: operands)) := by
  refine .of_operands (plain _) fun o mem => ?_
  obtain ⟨op', raw, same, ⟨t, tmem, rfl⟩ | rfl⟩ := mem_operands_ofTree mem
  · cases same
    exact (each t tmem).mono fun root names => .operand other tmem names
  · exact .literal _

/-- Two operands with an operator between them name what they name. -/
theorem selfNamed_joined {i : Nat} {o : Operator} (known : o ∈ operatorsAt i) {l r : Json}
    (left : SelfNamed l) (right : SelfNamed r) : SelfNamed (.arr [.str o.text, l, r]) := by
  have strength := (precedence?_eq_some_iff o i).mpr known
  have each : ∀ t ∈ [l, r], SelfNamed t :=
    List.forall_mem_cons.mpr ⟨left, List.forall_mem_singleton.mpr right⟩
  cases o
  case bang | question | colon | comma | dot => cases strength
  all_goals
    exact selfNamed_operator (fun _ => trivial) (by decide) each

/-- A sign in front of an operand names what the operand names. The plus calls a function
under its own name. -/
theorem selfNamed_signTree? {o : Operator} {t signedTree : Json}
    (known : signTree? o t = some signedTree) (operand : SelfNamed t) : SelfNamed signedTree := by
  have each : ∀ u ∈ [t], SelfNamed u := List.forall_mem_singleton.mpr operand
  unfold signTree? at known
  split at known <;> cases known
  · exact selfNamed_operator (fun _ => trivial) (by decide) each
  · exact selfNamed_operator (fun _ => trivial) (by decide) each
  · refine .of_operands (.intro (.call [] [t]) []) (List.forall_mem_singleton.mpr ?_)
    exact operand.mono fun root names => .argument _ List.mem_cons_self names

/-- A path in a tree begins with what the tree names. -/
theorem rooted_of_selfNamed {path : List Json} (base : SelfNamed (.arr (.str "var" :: path))) :
    Rooted (fun root => ∃ rest, path = Json.str root :: rest) (path.map segment) :=
  Rooted.mono (fun _ names => names.of_var) (base _ .self)

/-- A member names what its base and its key name: a path that grows keeps its first
segment. -/
theorem selfNamed_memberTree {base key : Json} (named : SelfNamed base)
    (namedKey : SelfNamed key) : SelfNamed (memberTree base key) := by
  rcases memberTree_cases base key with ⟨path, name, rfl, -, grown⟩ | lookup
  · have same : ofTree (.arr (.str "var" :: (path ++ [.str name]))) =
        .var (path.map segment ++ [name]) := by
      change Expr.var ((path ++ [Json.str name]).map segment) = _
      rw [List.map_append]
      rfl
    rw [grown, SelfNamed, same]
    refine .var (((rooted_of_selfNamed named).append [name]).mono ?_)
    rintro root ⟨rest, rfl⟩
    exact .var (rest ++ [.str name])
  · rw [lookup]
    exact selfNamed_operator (fun _ => trivial) (by decide)
      (List.forall_mem_cons.mpr ⟨named, List.forall_mem_singleton.mpr namedKey⟩)

/-- A call names what is called and what the arguments name. -/
theorem selfNamed_callTree? {callee called : Json} {args : List Json}
    (known : callTree? callee args = some called) (named : SelfNamed callee)
    (namedArgs : ∀ t ∈ args, SelfNamed t) : SelfNamed called := by
  rcases callTree?_cases known with ⟨path, rfl, rfl⟩ | ⟨receiver, name, rfl, rfl⟩
  · have same : ofTree (.arr (.str "call" :: .arr path :: args)) =
        .call (path.map segment) (ofTrees args) := rfl
    rw [SelfNamed, same, ofTrees_eq_map]
    refine .of_operands ((rooted_of_selfNamed named).mono ?_)
      (List.forall_mem_map.mpr fun t mem => ?_)
    · rintro root ⟨rest, rfl⟩
      exact .call rest args
    · exact (namedArgs t mem).mono fun root names => .argument _ mem names
  · have held : (ofTree receiver).RootedIn (Names · (.arr [.str "get", receiver, .str name])) :=
      named.of_mem List.mem_cons_self
    have same : ofTree (.arr (.str "method" :: receiver :: .str name :: args)) =
        .method (ofTree receiver) name (ofTrees args) := rfl
    rw [SelfNamed, same, ofTrees_eq_map]
    refine .of_operands trivial (List.forall_mem_cons.mpr ⟨held.mono fun root names => ?_,
        List.forall_mem_map.mpr fun t mem => ?_⟩)
    · obtain ⟨t, tmem, deeper⟩ := names.of_operator (by decide)
      have among : t ∈ receiver :: .str name :: args := by
        rcases List.mem_cons.mp tmem with rfl | later
        · exact List.mem_cons_self
        · rw [List.mem_singleton.mp later]
          exact List.mem_cons_of_mem receiver List.mem_cons_self
      exact .operand (by decide) among deeper
    · exact (namedArgs t mem).mono fun root names =>
        .operand (by decide) (List.mem_cons_of_mem _ (List.mem_cons_of_mem _ mem)) names

/-- A name on its own names itself, unless it stands for a value. -/
theorem selfNamed_nameTree (s : String) : SelfNamed (nameTree s) := by
  unfold nameTree
  repeat' split
  · exact .literal _
  · exact .literal _
  · exact .literal _
  · exact .literal _
  · exact .var (.intro (.var []) [])

/-- Wherever a tree is put together, it names what its paths begin with. -/
theorem keptByGrammar_selfNamed : KeptByGrammar SelfNamed where
  number n := .literal _
  text s := .literal _
  name := selfNamed_nameTree
  choice first second third :=
    selfNamed_operator (fun _ => trivial) (by decide) (List.forall_mem_cons.mpr
      ⟨first, List.forall_mem_cons.mpr ⟨second, List.forall_mem_singleton.mpr third⟩⟩)
  joined known := selfNamed_joined known
  sign := selfNamed_signTree?
  member := selfNamed_memberTree
  call := selfNamed_callTree?
  list each := selfNamed_operator (fun _ => trivial) (by decide) each

end Expr

open DerivedTags.Snippet.Expr

/-- All paths of what was read begin with names of the tree. -/
theorem selfNamed_of_read {source : String} {tree : Json} (h : read source = .ok tree) :
    SelfNamed tree := by
  obtain ⟨-, -, n, -, derivation⟩ := accepted_of_treeOf h
  exact derivation.each keptByGrammar_selfNamed

/-- Evaluations that are the same correspond. -/
def Correspondence.equality (m : Type → Type) [Monad m] : Correspondence m m where
  holds x y := y = x
  settled _ := rfl
  bind first onward := by
    subst first
    exact congrArg _ (funext onward)

section Agreement

variable {names : String → Prop} {b b' : Bindings}
  (agree : ∀ root, names root → b'.get? root = b.get? root)

include agree

/-- Bindings that agree on some names agree on the paths that begin with them. -/
theorem Rooted.resolve_eq {p : Path} (rooted : Rooted names p) : b'.resolve p = b.resolve p := by
  cases rooted with
  | intro named rest => rw [Bindings.resolve, Bindings.resolve, agree _ named]

/-- They agree on calls of such paths: no call is one of the bindings, and the receiver
stands at a path that begins the same. -/
theorem Rooted.invoke_eq {p : Path} (rooted : Rooted names p) (functions : FunctionTable)
    (values : List Value) :
    invoke b'.scope functions p values = invoke b.scope functions p values := by
  simp only [invoke, Bindings.scope]
  split
  · rfl
  · split
    · rfl
    · split
      · rfl
      · rename_i long
        have receiver : b'.resolve p.dropLast = b.resolve p.dropLast :=
          (rooted.dropLast (Nat.lt_of_not_le long)).resolve_eq agree
        rw [receiver]

/-- An expression whose paths begin with the names evaluates the same in both. -/
theorem Expr.RootedIn.eval_eq {e : Expr} (rooted : e.RootedIn names)
    (functions : FunctionTable) :
    e.eval b'.scope functions = e.eval b.scope functions := by
  refine Correspondence.holds_eval (c := Correspondence.equality Id) ⟨?_, ?_, ?_⟩
  · intro p occurs
    exact congrArg ExceptT.mk ((rooted _ occurs).resolve_eq agree)
  · intro p key name occurs
    have base : Occurs (.var p) e := Occurs.trans (.inside List.mem_cons_self .self) occurs
    exact congrArg ExceptT.mk (((rooted _ base).append [name]).resolve_eq agree)
  · intro p args values occurs
    exact (rooted _ occurs).invoke_eq agree functions values

end Agreement

/-- A path in the scope of bindings whose root is not bound is not defined. -/
theorem Bindings.resolve_unbound {b : Bindings} {root : String} (unbound : b.get? root = none)
    (rest : Path) :
    b.scope.resolve (root :: rest) = settled (.error (.error (.notDefined root))) := by
  have fails : b.resolve (root :: rest) = .error (.error (.notDefined root)) := by
    rw [resolve, unbound]
  exact congrArg ExceptT.mk fails

/-- A path in what was compiled from a text is one of the tree that was read. -/
theorem Expr.occurs_var_of_compile {tree : Json} {e : Expr} {p : Path}
    (compiled : Expr.compile tree = .ok e) (occurs : Occurs (.var p) e) :
    Occurs (.var p) (ofTree tree) := by
  obtain ⟨n, under⟩ := occurs.exists_under
  obtain ⟨before, folded, below⟩ := under.of_fold compiled
  obtain rfl := (eq_var_iff_of_fold folded p).mp rfl
  exact below.occurs

/-- Snippets see only the bindings that they name. A text that compiles was read as a tree;
where two bindings agree on the names with which paths and called paths of the tree begin,
be it on a value with its identity or on there being none, the compiled snippet evaluates
to the same value or the same error in both, with any function table. No computed member,
no method and no called function leads to anything else. Each path in the snippet begins
with one of these names, and if it is not bound, the path and a computed member of it end
in the error that the name is not defined. -/
theorem Compiled.eval_named {source : String} {c : Compiled}
    (h : Compiled.ofText source = .ok (.ok c)) :
    ∃ tree, read source = .ok tree ∧
      (∀ (functions : FunctionTable) (b b' : Bindings),
        (∀ root, Names root tree → b'.get? root = b.get? root) →
          c.expr.eval b'.scope functions = c.expr.eval b.scope functions) ∧
      ∀ p, Occurs (.var p) c.expr → ∃ root rest, p = root :: rest ∧ Names root tree ∧
        (EvalFailure.notDefined root).message = root ++ " is not defined" ∧
        ∀ (functions : FunctionTable) (b : Bindings), b.get? root = none →
          (Expr.var p).eval b.scope functions =
            settled (.error (.error (.notDefined root))) ∧
          ∀ key name, key.eval b.scope functions = settled (.ok name) →
            (Expr.get (.var p) key).eval b.scope functions =
              settled (.error (.error (.notDefined root))) := by
  obtain ⟨tree, found, -, compiled⟩ := Compiled.exists_of_ofText h
  have rooted : (Expr.ofTree tree).RootedIn (Names · tree) := selfNamed_of_read found
  have small := smallSums_of_read found
  refine ⟨tree, found, fun functions b b' agree => ?_, fun p occurs => ?_⟩
  · rw [eval_fold small compiled, eval_fold small compiled]
    exact rooted.eval_eq agree functions
  · obtain ⟨named, rest⟩ := rooted _ (occurs_var_of_compile compiled occurs)
    refine ⟨_, rest, rfl, named, rfl, fun functions b unbound => ⟨?_, fun key name done => ?_⟩⟩
    · exact Bindings.resolve_unbound unbound rest
    · rw [eval_get_var, done]
      exact Bindings.resolve_unbound unbound (rest ++ [name.display])

/-- A computed member of one binding under a name that another one gives does not depend on
a third one, and fails where the first one is not bound. -/
theorem Compiled.eval_named_member : ∃ c,
    Compiled.ofText "a[k]" = .ok (.ok c) ∧
      c.expr.eval (Bindings.scope ⟨[("k", .str "id"), ("a", .str "x"), ("secret", .int 1)]⟩)
          FunctionTable.standard =
        c.expr.eval (Bindings.scope ⟨[("k", .str "id"), ("a", .str "x")]⟩)
          FunctionTable.standard ∧
      c.expr.eval (Bindings.scope ⟨[("k", .str "id")]⟩) FunctionTable.standard =
        settled (.error (.error (.notDefined "a"))) := by
  have found : read "a[k]" =
      .ok (.arr [.str "get", .arr [.str "var", .str "a"], .arr [.str "var", .str "k"]]) := rfl
  have made : Compiled.ofText "a[k]" = .ok (.ok ⟨"a[k]", .get (.var ["a"]) (.var ["k"])⟩) := by
    rw [Compiled.ofText, found]
    rfl
  obtain ⟨tree, same, agreeing, unbound⟩ := Compiled.eval_named made
  obtain rfl := Except.ok.inj (found.symm.trans same)
  refine ⟨_, made, agreeing _ _ _ fun root names => ?_, ?_⟩
  · obtain ⟨t, mem, deeper⟩ := names.of_operator (by decide)
    simp only [List.mem_cons, List.not_mem_nil, or_false] at mem
    rcases mem with rfl | rfl
    all_goals
      obtain ⟨rest, begins⟩ := deeper.of_var
      cases begins
      rfl
  · obtain ⟨root, rest, begins, -, -, fails⟩ :=
      unbound ["a"] (.inside List.mem_cons_self .self)
    obtain ⟨rfl, rfl⟩ := List.cons.inj begins
    exact (fails _ _ rfl).2 _ (.str "id") rfl

end DerivedTags.Snippet
