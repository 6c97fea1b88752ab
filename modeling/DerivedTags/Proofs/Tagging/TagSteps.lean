import DerivedTags.Proofs.Feature.Outside
import DerivedTags.Proofs.Journal.Running
import DerivedTags.Tagging.LayerTags

/-!
# What a calculated tag does to a feature

A strict tag stores what its snippet gives and a lazy one leaves the computation.
Either way it writes its own key only, so that the tags of a layer together write
their keys only.
-/

namespace DerivedTags

/-- A sequence runs as its parts run one after the other. -/
theorem Reading.run_bind {α β : Type} (answer : String → StateM Session Answer) (r : Reading α)
    (next : α → Reading β) :
    (r.bind next).run answer = r.run answer >>= fun a => (next a).run answer := by
  induction r with
  | done a => rfl
  | ask key onward ih =>
    simp only [bind, run]
    exact congrArg _ (funext ih)
  | tell e rest ih =>
    simp only [bind, run]
    exact congrArg _ (funext fun _ => ih)

namespace CalculatedTag

/-- The computation that a lazy tag leaves. -/
def later (t : CalculatedTag) (methods : FeatureMethods) (view : View) : Reading Answer :=
  (t.compute methods view).bind fun tag => .done (.ok tag)

/-- What was stored under a key is there, and the others are as before. -/
theorem slot?_store (key : String) (f : Feature) (tag : Option Json) (other : String) :
    (store key f tag).properties.slot? other =
      if other = key then tag.map Slot.concrete else f.properties.slot? other := by
  cases tag with
  | none => exact f.properties.slot?_erase key other
  | some v => exact f.properties.slot?_set key other (.concrete v)

/-- Storing writes under one key only. -/
theorem store_agree (key : String) (f : Feature) (tag : Option Json) :
    Feature.AgreeOutside [key] f (store key f tag) := by
  cases tag with
  | none => exact .erase List.mem_cons_self f
  | some v => exact .set List.mem_cons_self f _

variable {t : CalculatedTag} (methods : FeatureMethods) (f : Feature) (s : Session)

/-- A strict tag stores what it computes. -/
theorem run_strict (strict : t.strict = true) :
    t.run methods f s =
      (store t.key f (f.run (t.compute methods f.view) s).1,
        (f.run (t.compute methods f.view) s).2) := by
  simp only [run, strict, if_true, Session.bind_apply, Session.pure_apply]

/-- A lazy tag leaves what it would compute, under a number of its own. -/
theorem run_lazy (lazy : t.strict = false) :
    t.run methods f s =
      (f.set t.key (.deferred ⟨s.nextDeferred, t.later methods⟩), (newDeferred s).2) := by
  simp only [run, lazy, Bool.false_eq_true, if_false, Session.bind_apply]
  rfl

/-- A tag writes its key only. -/
theorem run_agree : Feature.AgreeOutside [t.key] f (t.run methods f s).1 := by
  cases strict : t.strict with
  | true =>
    rw [run_strict methods f s strict]
    exact store_agree t.key f _
  | false =>
    rw [run_lazy methods f s strict]
    exact .set List.mem_cons_self f _

end CalculatedTag

namespace LayerTags

/-- The keys that the tags of a layer write, in order. -/
def keys (l : LayerTags) : List String := l.tags.map (·.key)

/-- Tags write their keys only. -/
theorem runAll_agree (methods : FeatureMethods) (tags : List CalculatedTag) (f : Feature)
    (s : Session) :
    Feature.AgreeOutside (tags.map (·.key)) f (runAll methods tags f s).1 := by
  induction tags generalizing f s with
  | nil => exact .refl _ f
  | cons t rest ih =>
    have first := (t.run_agree methods f s).mono (by simp : [t.key] ⊆ t.key :: rest.map (·.key))
    exact first.trans ((ih _ _).mono (List.subset_cons_self _ _))

end LayerTags

/-- Attaching methods to a feature succeeds. -/
def MethodSource.Succeeds (source : MethodSource) (surroundings : Surroundings) (f : Feature)
    (s : Session) : Prop :=
  ∃ methods, (f.run (source.attach surroundings f.view) (noteCall (.attached f.id) s).2).1 =
    .ok (.ok methods)

/-- The standard methods can be attached to every feature. -/
theorem MethodSource.standard_succeeds (surroundings : Surroundings) (f : Feature) (s : Session) :
    standard.Succeeds surroundings f s := ⟨_, rfl⟩

/-- Where methods can be attached, all tags of the layer run. -/
theorem LayerTags.run_of_succeeds (l : LayerTags) {source : MethodSource}
    {surroundings : Surroundings} {f : Feature} {s : Session}
    (succeeds : source.Succeeds surroundings f s) :
    ∃ methods after, l.run source surroundings f s = runAll methods l.tags f after := by
  obtain ⟨methods, attached⟩ := succeeds
  let attaching := f.run (source.attach surroundings f.view) (noteCall (.attached f.id) s).2
  refine ⟨methods, attaching.2, ?_⟩
  simp only [run, Session.bind_apply, attached, attaching]

end DerivedTags
