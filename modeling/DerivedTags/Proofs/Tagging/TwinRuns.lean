import DerivedTags.Proofs.Tagging.SideBySide
import DerivedTags.Proofs.Tagging.SteadyTags
import DerivedTags.Proofs.Tagging.TwinReads
import DerivedTags.Proofs.Tagging.Upkeep

/-!
# Twins are visited side by side

A visit writes the same to twins, computes the same of them and adds the same to the
sessions, so that they are twins again afterwards. New numbers differ on the two sides,
but on each side they are none that are in use.
-/

namespace DerivedTags

open DerivedTags.Session (SameSince)

namespace Feature

/-- The numbers that are in use were given out: those under computation and those of the
feature. -/
structure Known (f : Feature) (s : Session) : Prop where
  /-- Those under computation. -/
  numbered : s.Numbered
  /-- Those of the feature. -/
  issued : f.Issued s

namespace Known

variable {f : Feature} {s t : Session}

/-- Numbers that were given out stay so. -/
theorem onward (known : f.Known s) (step : s.Precedes t) : f.Known t :=
  ⟨step.numbered known.numbered, Upkeep.issued.mono step.numbers known.issued⟩

/-- A value may be put. -/
theorem put (known : f.Known s) (key : String) (v : Json) : (f.set key (.concrete v)).Known s :=
  ⟨known.numbered, Upkeep.issued.put key v known.issued⟩

/-- A key may be removed. -/
theorem remove (known : f.Known s) (key : String) : (f.erase key).Known s :=
  ⟨known.numbered, Upkeep.issued.remove key known.issued⟩

/-- A computation may be left under a new number. -/
theorem leave (known : f.Known s) (key : String) (compute : View → Reading Answer) :
    (f.set key (.deferred ⟨s.nextDeferred, compute⟩)).Known (newDeferred s).2 := by
  have later := known.onward (Orderly.newDeferred s)
  exact ⟨later.numbered,
    Upkeep.issued.leave key (Nat.lt_succ_self s.nextDeferred) trivial later.issued⟩

/-- A new number is not under computation. -/
theorem idle (known : f.Known s) : s.nextDeferred ∉ s.evaluating := fun mem =>
  Nat.lt_irrefl _ (known.numbered _ mem)

/-- A new number is none of the feature. -/
theorem fresh (known : f.Known s) (key : String) (d : Deferred)
    (slot : f.properties.slot? key = some (.deferred d)) : d.id ≠ s.nextDeferred :=
  Nat.ne_of_lt (known.issued key d slot)

end Known

/-- Twins, each in a session of its own. -/
structure TwinAt (ordered : Prop) (s : Session) (f : Feature) (t : Session) (g : Feature) :
    Prop where
  /-- They are twins. -/
  twin : f.Twin ordered g
  /-- The same of their properties are under computation. -/
  marks : f.Marks g s t
  /-- The numbers of the first one were given out. -/
  here : f.Known s
  /-- The numbers of the second one were given out. -/
  there : g.Known t

/-- A feature is its own twin in two sessions in which the same is under computation. -/
theorem TwinAt.start {ordered : Prop} {f : Feature} {s t : Session}
    (steady : ∀ key d, f.properties.slot? key = some (.deferred d) → Steady ordered d.compute)
    (here : f.Known s) (there : f.Known t) (same : t.evaluating = s.evaluating) :
    TwinAt ordered s f t f := ⟨.refl steady, .self f same, here, there⟩

end Feature

/-- Two runs over twins, each from a session of its own. -/
def Pairing.twins (ordered : Prop) (s₀ t₀ : Session) : Pairing where
  sessions := SameSince s₀ t₀
  features := Feature.TwinAt ordered
  allows := Steady ordered
  looksLike both :=
    ⟨both.twin.id, both.twin.geometry, both.twin.concrete?_eq, both.twin.contains_eq⟩
  addEvent e same := same.addEvent e
  addLines _ same := same.congr rfl rfl rfl rfl
  tick same := same.congr rfl rfl rfl rfl
  newDeferred same := same.congr rfl rfl rfl rfl
  onward first second both :=
    ⟨both.twin, both.marks.onward first second, both.here.onward first, both.there.onward second⟩
  put key v both :=
    { twin := both.twin.set key (.concrete v) fun _ _ no => nomatch no
      marks := fun i j stand => both.marks i j <| stand.of_set.resolve_right
        fun ⟨_, _, no, _⟩ => nomatch no
      here := both.here.put key v
      there := both.there.put key v }
  remove key both :=
    { twin := both.twin.erase key
      marks := fun i j stand => both.marks i j stand.of_erase
      here := both.here.remove key
      there := both.there.remove key }
  leave key steady _ both :=
    { twin := both.twin.set key (.deferred _ _ steady) fun d e first second => by
        obtain rfl := Slot.deferred.inj first
        obtain rfl := Slot.deferred.inj second
        exact ⟨both.here.fresh, both.there.fresh⟩
      marks := fun i j stand => by
        rcases stand.of_set with old | ⟨d, e, first, second, rfl, rfl⟩
        · exact both.marks i j old
        · obtain rfl := Slot.deferred.inj first
          obtain rfl := Slot.deferred.inj second
          exact iff_of_false both.here.idle both.there.idle
      here := both.here.leave key _
      there := both.there.leave key _ }
  measures := Standard.fromGeometry_steady
  later := CalculatedTag.later_steady

namespace Pairing

variable {ordered : Prop} {s₀ t₀ : Session}

/-- Whatever runs over twins gives the same. -/
theorem run_twins {s t : Session} {f g : Feature} (paired : (twins ordered s₀ t₀).Paired s f t g)
    {α : Type} (r : Reading α) :
    (g.run r t).1 = (f.run r s).1 ∧ SameSince s₀ t₀ (f.run r s).2 (g.run r t).2 := by
  obtain ⟨same, after⟩ := paired.features.twin.run r s t ⟨paired.sessions, paired.features.marks⟩
  exact ⟨same.symm, after.since⟩

/-- Tags are computed of twins side by side. -/
theorem computes_twins (tag : CalculatedTag) : (twins ordered s₀ t₀).Computes tag := by
  intro s t f g lookup centre box paired
  simp only [paired.features.twin.view.compute tag lookup centre box]
  exact run_twins paired _

/-- Where the order matters, the properties of twins are forced side by side. -/
theorem forces_twins (matters : ordered) : (twins ordered s₀ t₀).Forces where
  force {s t f g} key paired := by
    have slots := paired.features.twin.slots key
    generalize here : f.properties.slot? key = a at slots
    generalize there : g.properties.slot? key = b at slots
    rcases slots with @⟨_, _, v | ⟨i, j, steady⟩⟩ | _
    · simp only [Feature.force, here, there]
      exact paired.pure _
    · obtain ⟨same, after⟩ :=
        paired.features.twin.get key s t ⟨paired.sessions, paired.features.marks⟩
      have read := paired.onward after.since (Orderly.discipline.get f key s)
        (Orderly.discipline.get g key t)
      rw [Feature.force_apply here, Feature.force_apply there, ← same]
      refine ⟨rfl, read.sessions, ?_⟩
      rcases (f.get key s).1 with panic | _ | v
      · exact read.features
      · exact (twins ordered s₀ t₀).remove key read.features
      · exact (twins ordered s₀ t₀).put key v read.features
    · simp only [Feature.force, here, there]
      exact paired.pure _
  deferredKeys both := both.twin.deferredKeys_eq matters

end Pairing

end DerivedTags
