import DerivedTags.Proofs.Feature.Asking
import DerivedTags.Proofs.Feature.Forcing

/-!
# Computations that do not panic

A computation is calm if it ends in a value or in nothing as long as none of its
questions is answered with a panic. A feature whose deferred properties are all calm can
be read and forced without a panic, and where a key was forced nothing stays deferred.
-/

namespace DerivedTags

namespace Reading

/-- Without a panic among the answers, the computation does not end in one. -/
def Calm : Reading Answer → Prop
  | .done a => ∃ v, a = .ok v
  | .ask _ next => ∀ v, (next (.ok v)).Calm
  | .tell _ next => next.Calm

/-- What goes on calmly ends calmly. -/
theorem Calm.of_onward {α : Type} (r : Reading α) {next : α → Reading Answer}
    (onward : ∀ a, (next a).Calm) : (r.bind next).Calm := by
  induction r with
  | done a => exact onward a
  | ask key inner ih => exact fun v => ih (.ok v)
  | tell e rest ih => exact ih

/-- A calm computation that is answered calmly gives a value or nothing. -/
theorem Calm.run {r : Reading Answer} (calm : r.Calm) {answer : String → StateM Session Answer}
    (answered : ∀ key s, ∃ v, (answer key s).1 = .ok v) (s : Session) :
    ∃ v, (r.run answer s).1 = .ok v := by
  induction r generalizing s with
  | done a => exact calm
  | ask key next ih =>
    obtain ⟨v, given⟩ := answered key s
    simp only [Reading.run, Session.bind_apply, given]
    exact ih _ (calm v) _
  | tell e next ih => exact ih calm _

end Reading

/-- The computation does not panic, whatever it sees of the feature. -/
def Deferred.Calm (d : Deferred) : Prop := ∀ view, (d.compute view).Calm

/-- A calm deferred property is computed without a panic. -/
theorem Deferred.Calm.evaluate {d : Deferred} (calm : d.Calm)
    {answer : String → StateM Session Answer} (answered : ∀ key s, ∃ v, (answer key s).1 = .ok v)
    (view : View) (s : Session) : ∃ v, (d.evaluate answer view s).1 = .ok v := by
  rw [evaluate_apply]
  split
  · exact ⟨none, rfl⟩
  · exact (calm view).run answered _

namespace Feature

/-- The deferred properties of the feature are all calm. -/
def Calm (f : Feature) : Prop :=
  ∀ key d, f.properties.slot? key = some (.deferred d) → d.Calm

/-- Nothing of the feature is deferred. -/
def Computed (f : Feature) : Prop := ∀ key, f.Plain key

variable {f g : Feature} {s after : Session}

/-- Where nothing is deferred all is calm. -/
theorem Computed.calm (computed : f.Computed) : f.Calm := fun key d slot =>
  absurd slot (computed key d)

/-- Putting a value, or a calm computation, keeps a feature calm. -/
theorem Calm.set (calm : f.Calm) (key : String) {slot : Slot}
    (quiet : ∀ d, slot = .deferred d → d.Calm) : (f.set key slot).Calm := by
  intro other d found
  rw [Feature.set, withProperties, Properties.slot?_set] at found
  split at found
  · exact quiet d (Option.some.inj found)
  · exact calm other d found

/-- Removing a key keeps a feature calm. -/
theorem Calm.erase (calm : f.Calm) (key : String) : (f.erase key).Calm := by
  intro other d found
  rw [Feature.erase, withProperties, Properties.slot?_erase] at found
  split at found
  · cases found
  · exact calm other d found

/-- Reading a property of a calm feature does not panic, however deep computations nest. -/
theorem Calm.getWithin (calm : f.Calm) (depth : Nat) (key : String) (s : Session) :
    ∃ v, (f.getWithin depth key s).1 = .ok v := by
  induction depth generalizing key s with
  | zero => exact ⟨_, rfl⟩
  | succ depth ih =>
    unfold Feature.getWithin
    rcases slot : f.properties.slot? key with _ | ⟨v | d⟩
    · exact ⟨none, rfl⟩
    · exact ⟨some v, rfl⟩
    · exact (calm key d slot).evaluate ih f.view s

/-- Forcing a property of a calm feature does not panic. -/
theorem Calm.force (calm : f.Calm) (key : String) (s : Session) :
    ∃ v, (f.force key s).1.1 = .ok v := by
  rcases slot : f.properties.slot? key with _ | ⟨v | d⟩
  · exact ⟨none, by simp [Feature.force, slot]⟩
  · exact ⟨some v, by simp [Feature.force, slot]⟩
  · rw [force_apply slot]
    exact calm.getWithin _ key s

/-- Keeping an answer keeps a feature calm. -/
theorem Calm.kept (calm : f.Calm) (key : String) (a : Answer) : (f.kept key a).Calm := by
  rcases a with panic | _ | v
  · exact calm
  · exact calm.erase key
  · exact calm.set key fun d same => nomatch same

/-- Forcing keys of a calm feature does not panic. -/
theorem Calm.forceKeys (calm : f.Calm) (keys : List String) (s : Session) :
    ∃ g after, f.forceKeys keys s = ((.ok (), g), after) := by
  induction keys generalizing f s with
  | nil => exact ⟨f, s, rfl⟩
  | cons key rest ih =>
    obtain ⟨v, answered⟩ := calm.force key s
    have calmNext : (f.force key s).1.2.Calm := by
      rcases f.force_snd key s with same | same
      · rwa [same]
      · rw [same]
        exact calm.kept key _
    obtain ⟨g, after, forced⟩ := ih calmNext (f.force key s).2
    refine ⟨g, after, ?_⟩
    simp only [Feature.forceKeys, Session.bind_apply, answered, forced]

/-- What an answer leaves in the place of a property is not deferred. -/
theorem plain_kept (f : Feature) (key : String) (v : Option Json) :
    (f.kept key (.ok v)).Plain key := by
  intro d
  cases v with
  | none => simp [kept, Feature.erase, withProperties, Properties.slot?_erase]
  | some v => simp [kept, Feature.set, withProperties, Properties.slot?_set]

/-- Putting a value makes nothing deferred. -/
theorem Plain.set {key : String} (plain : f.Plain key) (other : String) (v : Json) :
    (f.set other (.concrete v)).Plain key := by
  intro d
  simp only [Feature.set, withProperties, Properties.slot?_set]
  split
  · simp
  · exact plain d

/-- Removing a key makes nothing deferred. -/
theorem Plain.erase {key : String} (plain : f.Plain key) (other : String) :
    (f.erase other).Plain key := by
  intro d
  simp only [Feature.erase, withProperties, Properties.slot?_erase]
  split
  · simp
  · exact plain d

/-- A property that was forced is not deferred any more, and no other one becomes so. -/
theorem plain_of_force {key : String} {v : Option Json}
    (forced : (f.force key s).1 = (.ok v, g)) :
    g.Plain key ∧ ∀ other, f.Plain other → g.Plain other := by
  cases slot : f.properties.slot? key with
  | none =>
    obtain rfl : f = g := by simpa [Feature.force, slot] using congrArg Prod.snd forced
    exact ⟨fun d => by simp [slot], fun _ plain => plain⟩
  | some found =>
    cases found with
    | concrete v =>
      obtain rfl : f = g := by simpa [Feature.force, slot] using congrArg Prod.snd forced
      exact ⟨fun d => by simp [slot], fun _ plain => plain⟩
    | deferred d =>
      rw [force_apply slot] at forced
      obtain ⟨answered, rfl⟩ := Prod.mk.inj forced
      rw [answered]
      refine ⟨plain_kept f key v, fun other plain => ?_⟩
      cases v with
      | none => exact plain.erase key
      | some v => exact plain.set key v

/-- Keys that were forced are not deferred any more, and no other one becomes so. -/
theorem plain_of_forceKeys {keys : List String}
    (forced : (f.forceKeys keys s).1 = (.ok (), g)) :
    (∀ key ∈ keys, g.Plain key) ∧ ∀ key, f.Plain key → g.Plain key := by
  induction keys generalizing f s with
  | nil =>
    obtain rfl : f = g := congrArg Prod.snd forced
    exact ⟨by simp, fun _ plain => plain⟩
  | cons key rest ih =>
    rcases first : f.force key s with ⟨⟨panic | v, h⟩, mid⟩
    all_goals simp only [Feature.forceKeys, Session.bind_apply, first] at forced
    · simp at forced
    obtain ⟨mine, others⟩ := plain_of_force (congrArg Prod.fst first)
    obtain ⟨later, kept⟩ := ih forced
    refine ⟨fun other mem => ?_, fun other plain => kept other (others other plain)⟩
    rcases List.mem_cons.mp mem with rfl | mem
    · exact kept _ mine
    · exact later other mem

/-- Where all that was deferred was forced, nothing is deferred any more. -/
theorem computed_of_forceAll (forced : (f.forceAll s).1 = (.ok (), g)) : g.Computed := by
  obtain ⟨deferred, others⟩ := plain_of_forceKeys forced
  intro key
  by_cases plain : f.Plain key
  · exact others key plain
  · obtain ⟨d, slot⟩ := Classical.not_forall_not.mp plain
    exact deferred key (Properties.mem_deferredKeys slot)

end Feature

end DerivedTags
