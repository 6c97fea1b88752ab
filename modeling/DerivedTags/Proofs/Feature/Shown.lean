import DerivedTags.Feature.Basic
import DerivedTags.Proofs.Json.Members

/-!
# What features show

Enumerations, tests of presence and the JSON form show of each property its key and, if
it has one, its value. They do not compute anything: where two features differ only in
the computations of deferred properties they all give the same.
-/

namespace DerivedTags

namespace Properties

/-- What is to be seen of properties without computing any: the keys in order, each with
its value if it has one. -/
def shown (ps : Properties) : List (String × Option Json) :=
  ps.entries.map fun entry => (entry.1, entry.2.value?)

variable (ps : Properties)

/-- The keys are shown. -/
theorem keys_eq_shown : ps.keys = ps.shown.map Prod.fst := by
  simp [keys, shown]

/-- The concrete properties are shown. -/
theorem concrete_eq_shown :
    ps.concrete = ps.shown.filterMap fun entry => entry.2.map fun v => (entry.1, v) := by
  simp only [concrete, shown, List.filterMap_map]
  rfl

/-- A property is shown under its key. -/
theorem lookup_shown (key : String) : ps.shown.lookup key = (ps.slot? key).map Slot.value? :=
  Json.lookup_map_snd Slot.value? ps.entries key

variable {ps} {qs : Properties}

/-- Where the same is shown the same values are there. -/
theorem concrete?_of_shown (same : qs.shown = ps.shown) (key : String) :
    qs.concrete? key = ps.concrete? key := by
  have shown := congrArg (List.lookup key) same
  rw [lookup_shown, lookup_shown] at shown
  rw [concrete?, concrete?]
  cases there : qs.slot? key <;> cases here : ps.slot? key <;> simp_all

/-- Where the same is shown the same keys are there. -/
theorem contains_of_shown (same : qs.shown = ps.shown) (key : String) :
    qs.contains key = ps.contains key := by
  have shown := congrArg (List.lookup key) same
  rw [lookup_shown, lookup_shown] at shown
  rw [contains, contains]
  cases there : qs.slot? key <;> cases here : ps.slot? key <;> simp_all

/-- Where the same is shown there is the same under each key, unless it is deferred on
both sides. -/
theorem slot?_of_shown (same : qs.shown = ps.shown) (key : String) :
    qs.slot? key = ps.slot? key ∨
      ∃ d e, ps.slot? key = some (.deferred d) ∧ qs.slot? key = some (.deferred e) := by
  have shown := congrArg (List.lookup key) same
  rw [lookup_shown, lookup_shown] at shown
  rcases here : ps.slot? key with _ | ⟨v | d⟩ <;> rcases there : qs.slot? key with _ | ⟨w | e⟩
  all_goals simp_all [Slot.value?]

/-- Putting properties that show the same shows the same. -/
theorem shown_set (same : qs.shown = ps.shown) (key : String) {a b : Slot}
    (value : b.value? = a.value?) : (qs.set key b).shown = (ps.set key a).shown := by
  simp only [shown, set] at same ⊢
  generalize ps.entries = here at same ⊢
  generalize qs.entries = there at same ⊢
  induction here generalizing there with
  | nil =>
    obtain rfl := List.map_eq_nil_iff.mp same
    simp [setEntry, value]
  | cons entry rest ih =>
    obtain ⟨k, old⟩ := entry
    obtain ⟨⟨l, other⟩, others, rfl, first, later⟩ := List.map_eq_cons_iff.mp same
    obtain ⟨rfl, shown⟩ := Prod.mk.inj first
    by_cases own : l = key
    · simp [setEntry, own, value, later]
    · simp [setEntry, own, shown, ih _ later]

/-- Removing a key shows the same. -/
theorem shown_erase (same : qs.shown = ps.shown) (key : String) :
    (qs.erase key).shown = (ps.erase key).shown := by
  have filtered (ps : Properties) :
      (ps.erase key).shown = ps.shown.filter fun entry => entry.1 != key := by
    simp only [shown, erase, List.filter_map]
    rfl
  rw [filtered, filtered, same]

end Properties

namespace Feature

/-- Two features that differ at most in the computations of deferred properties. -/
structure ShowsSame (f g : Feature) : Prop where
  /-- They have the same id. -/
  id : g.id = f.id
  /-- They have the same geometry. -/
  geometry : g.geometry = f.geometry
  /-- They have the same keys in the same order, with the same values under those that are
  not deferred. -/
  shown : g.properties.shown = f.properties.shown

/-- Enumerations, tests of presence and the JSON form do not compute anything. -/
theorem ShowsSame.exports {f g : Feature} (same : f.ShowsSame g) :
    g.properties.keys = f.properties.keys ∧ g.properties.concrete = f.properties.concrete ∧
      (∀ key, g.properties.contains key = f.properties.contains key) ∧
      (∀ key, g.properties.concrete? key = f.properties.concrete? key) ∧ g.toJson = f.toJson := by
  have concrete : g.properties.concrete = f.properties.concrete := by
    rw [Properties.concrete_eq_shown, same.shown, ← Properties.concrete_eq_shown]
  refine ⟨?_, concrete, Properties.contains_of_shown same.shown,
    Properties.concrete?_of_shown same.shown, ?_⟩
  · rw [Properties.keys_eq_shown, same.shown, ← Properties.keys_eq_shown]
  · simp only [toJson, Properties.toJson, concrete, same.id, same.geometry]

end Feature

end DerivedTags
