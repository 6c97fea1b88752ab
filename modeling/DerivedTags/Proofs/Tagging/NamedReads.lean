import DerivedTags.Proofs.Feature.Asking
import DerivedTags.Proofs.Snippet.Dependence
import DerivedTags.Tagging.LayerTags

/-!
# Snippets that name what they read

A snippet that reaches the feature through its id, type and geometry and through
properties that it names depends on nothing else: neither on the other properties,
nor on their order, nor on the methods that are attached. It does not use the feature
or all its properties as a value, and calls no methods of the feature.
-/

namespace DerivedTags

open DerivedTags.Snippet

/-- A path that leads to no properties but those under some keys, and not to the whole
feature either. The empty path is none: a computed member could lead anywhere from it. -/
inductive NamesOnly (keys : String → Prop) : Path → Prop where
  /-- It does not lead to the feature. -/
  | elsewhere {root : String} (other : root ≠ "feat") (rest : Path) :
      NamesOnly keys (root :: rest)
  /-- It leads to a member of the feature other than its properties. -/
  | member {name : String} (other : name ≠ "properties") (rest : Path) :
      NamesOnly keys ("feat" :: name :: rest)
  /-- It leads to one of the properties or into it. -/
  | property {key : String} (named : keys key) (rest : Path) :
      NamesOnly keys ("feat" :: "properties" :: key :: rest)

/-- A path that goes on leads to the same properties. -/
theorem NamesOnly.append {keys : String → Prop} {p : Path} (names : NamesOnly keys p)
    (inner : Path) : NamesOnly keys (p ++ inner) := by
  cases names with
  | elsewhere other rest => exact .elsewhere other (rest ++ inner)
  | member other rest => exact .member other (rest ++ inner)
  | property named rest => exact .property named (rest ++ inner)

/-- An expression reads no properties of the feature but those under some keys, and
uses neither the whole feature nor its methods. -/
structure Snippet.Expr.NamesOnly (keys : String → Prop) (e : Expr) : Prop where
  /-- Its paths lead to no others. -/
  paths : ∀ p, Occurs (.var p) e → DerivedTags.NamesOnly keys p
  /-- The receivers of its calls by path lead to no others. -/
  receivers : ∀ p args, Occurs (.call p args) e → 2 ≤ p.length →
    DerivedTags.NamesOnly keys p.dropLast

namespace Snippet.Expr.NamesOnly

variable {keys : String → Prop}

/-- An expression names what it reads if its operands do and it is neither a path nor
a call by path that does not. -/
theorem of_operands {e : Expr} (path : ∀ p, e = .var p → DerivedTags.NamesOnly keys p)
    (receiver : ∀ p args, e = .call p args → 2 ≤ p.length →
      DerivedTags.NamesOnly keys p.dropLast)
    (inside : ∀ o ∈ e.operands, o.NamesOnly keys) : e.NamesOnly keys where
  paths p occurs := by
    cases occurs with
    | self => exact path p rfl
    | inside mem deeper => exact (inside _ mem).paths p deeper
  receivers p args occurs := by
    cases occurs with
    | self => exact receiver p args rfl
    | inside mem deeper => exact (inside _ mem).receivers p args deeper

/-- A path names what it reads if it leads to no other properties. -/
theorem var {p : Path} (names : DerivedTags.NamesOnly keys p) : (Expr.var p).NamesOnly keys :=
  of_operands (fun _ same => Expr.var.inj same ▸ names) (fun _ _ same => nomatch same)
    (fun _ mem => nomatch mem)

/-- A call by path names what it reads if its receiver and its arguments do. -/
theorem call {p : Path} {args : List Expr}
    (receiver : 2 ≤ p.length → DerivedTags.NamesOnly keys p.dropLast)
    (inside : ∀ o ∈ args, o.NamesOnly keys) : (Expr.call p args).NamesOnly keys :=
  of_operands (fun _ same => nomatch same)
    (fun _ _ same => (Expr.call.inj same).1 ▸ receiver) inside

end Snippet.Expr.NamesOnly

/-- Two evaluations are the same computation, and it asks only for properties under
some keys. -/
def asking (keys : String → Prop) : Correspondence Reading Reading where
  holds x y := x = y ∧ x.run.AsksOnly keys
  settled result := ⟨rfl, trivial⟩
  bind first onward := by
    obtain ⟨rfl, asks⟩ := first
    refine ⟨congrArg _ (funext fun a => (onward a).1), Reading.AsksOnly.bind asks fun result => ?_⟩
    cases result with
    | ok a => exact (onward a).2
    | error e => exact trivial

section Paths

variable (v : View) (rest : Path)

/-- The id is a member of the feature. -/
theorem View.resolve_id :
    v.resolve ("id" :: rest) = settled ((Value.str v.id).follow rest) := rfl

/-- So is its geometry. -/
theorem View.resolve_geometry :
    v.resolve ("geometry" :: rest) = settled (v.geometryValue.follow rest) := rfl

/-- A named property is read, and members are followed from there. -/
theorem View.resolve_property (key : String) :
    v.resolve ("properties" :: key :: rest) =
      FeatureMethods.property key >>= fun p => settled ((View.propertyValue p).follow rest) :=
  rfl

/-- There are no other members. -/
theorem View.resolve_other {name : String}
    (other : name ∉ ["properties", "id", "type", "geometry"]) :
    v.resolve (name :: rest) = settled (Value.undefined.follow rest) := by
  simp only [List.mem_cons, List.not_mem_nil, or_false, not_or] at other
  unfold View.resolve
  split <;> simp_all

end Paths

section Views

variable {keys : String → Prop} {v v' : View} (sameId : v'.id = v.id)
  (sameGeometry : v'.geometry = v.geometry) (methods methods' : FeatureMethods)

include sameId sameGeometry

/-- A path that names what it leads to is resolved by the same computation for all
features with the same id and geometry. -/
theorem NamesOnly.resolve {p : Path} (names : NamesOnly keys p) :
    (asking keys).holds ((v.scope methods).resolve p) ((v'.scope methods').resolve p) := by
  have inside (rest : Path) (w : View) (attached : FeatureMethods) :
      (w.scope attached).resolve ("feat" :: rest) = w.resolve rest := rfl
  cases names with
  | elsewhere other rest =>
    have no : ¬(_ == "feat") = true := mt beq_iff_eq.mp other
    simp only [View.scope, if_neg no]
    exact (asking keys).settled _
  | @member name other rest =>
    rw [inside, inside]
    by_cases known : name ∈ ["properties", "id", "type", "geometry"]
    · simp only [List.mem_cons, List.not_mem_nil, or_false, other, false_or] at known
      rcases known with rfl | rfl | rfl
      · rw [View.resolve_id, View.resolve_id, sameId]
        exact (asking keys).settled _
      · exact (asking keys).settled _
      · simp only [View.resolve_geometry, View.geometryValue, sameGeometry]
        exact (asking keys).settled _
    · rw [View.resolve_other v rest known, View.resolve_other v' rest known]
      exact (asking keys).settled _
  | @property key named rest =>
    rw [inside, inside, View.resolve_property, View.resolve_property]
    have asks :
        (asking keys).holds (FeatureMethods.property key) (FeatureMethods.property key) := by
      refine ⟨rfl, named, fun answer => ?_⟩
      cases answer <;> exact trivial
    exact (asking keys).bind asks fun p => (asking keys).settled _

omit sameId sameGeometry in
/-- A call by path that is no call of a method of the feature is none of the scope. -/
theorem NamesOnly.call_eq_none {p : Path} (receiver : 2 ≤ p.length → NamesOnly keys p.dropLast)
    (values : List Value) : (v.scope methods).call p values = none := by
  match p with
  | [] | [_] => rfl
  | [root, name] =>
    cases receiver (Nat.le_refl 2) with
    | elsewhere other =>
      have no : ¬(root == "feat") = true := mt beq_iff_eq.mp other
      simp only [View.scope, if_neg no]
  | _ :: _ :: _ :: _ => rfl

/-- A call by path whose receiver names what it leads to is the same computation for
all features with the same id and geometry. -/
theorem NamesOnly.invoke {p : Path} (receiver : 2 ≤ p.length → NamesOnly keys p.dropLast)
    (functions : FunctionTable) (values : List Value) :
    (asking keys).holds (invoke (v.scope methods) functions p values)
      (invoke (v'.scope methods') functions p values) := by
  simp only [Snippet.invoke, call_eq_none methods receiver, call_eq_none methods' receiver]
  split
  · exact (asking keys).settled _
  · split
    · exact (asking keys).settled _
    · split
      · exact (asking keys).settled _
      · rename_i long
        exact (asking keys).bind
          ((receiver (by omega)).resolve sameId sameGeometry methods methods')
          fun value => (asking keys).settled _

/-- Scopes over features with the same id and geometry correspond for an expression
that names what it reads. -/
theorem Snippet.Expr.NamesOnly.covers {e : Expr} (names : e.NamesOnly keys)
    (functions : FunctionTable) :
    (asking keys).Covers (v.scope methods) (v'.scope methods') functions e where
  path p occurs := (names.paths p occurs).resolve sameId sameGeometry methods methods'
  member p key name occurs := by
    have path : Occurs (.var p) (.get (.var p) key) := .inside List.mem_cons_self .self
    exact ((names.paths p (path.trans occurs)).append [name]).resolve sameId sameGeometry
      methods methods'
  call p args values occurs :=
    DerivedTags.NamesOnly.invoke sameId sameGeometry methods methods'
      (names.receivers p args occurs) functions values

/-- A tag whose snippet names what it reads is the same computation for all features
with the same id and geometry, whatever methods are attached, and asks for nothing
else. -/
theorem CalculatedTag.compute_congr {t : CalculatedTag}
    (names : ∀ c, t.compiled = .ok c → c.expr.NamesOnly keys) :
    t.compute methods' v' = t.compute methods v ∧ (t.compute methods v).AsksOnly keys := by
  have outcome : t.outcome methods' v' = t.outcome methods v ∧
      (t.outcome methods v).AsksOnly keys := by
    unfold CalculatedTag.outcome
    cases compiled : t.compiled with
    | error refusal => exact ⟨rfl, trivial⟩
    | ok c =>
      obtain ⟨same, asks⟩ := Correspondence.holds_eval
        ((names c compiled).covers sameId sameGeometry methods methods' t.functions)
      refine ⟨?_, ?_⟩
      · simp only [Compiled.evaluate, same]
      · refine Reading.AsksOnly.bind (Reading.AsksOnly.bind asks fun result => trivial) ?_
        intro result
        cases result <;> exact trivial
  refine ⟨?_, ?_⟩
  · rw [CalculatedTag.compute, outcome.1, CalculatedTag.compute]
  · refine Reading.AsksOnly.bind outcome.2 fun result => ?_
    cases result <;> exact trivial

end Views

end DerivedTags
