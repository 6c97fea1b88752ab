import DerivedTags.Feature.Basic

/-!
# Features that differ under few keys

Whoever writes certain keys of a feature leaves everything else alone: its id,
its geometry, the other properties and their order. The properties under other
keys are compared as a list, so that a key that came and went leaves no trace.
-/

namespace DerivedTags

namespace Properties

/-- The properties under other keys than the given ones, in order. -/
def without (ps : Properties) (keys : List String) : List (String × Slot) :=
  ps.entries.filter fun entry => decide (entry.1 ∉ keys)

/-- There is a property under a key exactly if the key is among the keys. -/
theorem contains_iff_mem_keys (ps : Properties) (key : String) :
    ps.contains key = true ↔ key ∈ ps.keys := by
  simp only [contains, slot?, keys]
  induction ps.entries with
  | nil => simp
  | cons entry rest ih =>
    rw [List.lookup_cons, List.map_cons, List.mem_cons, ← ih]
    by_cases same : key = entry.1
    · simp [same]
    · have : (key == entry.1) = false := by simpa using same
      simp [this, same]

/-- A property that was put is there; the others are there as before. -/
theorem contains_set (ps : Properties) (key other : String) (slot : Slot) :
    (ps.set key slot).contains other = (decide (other = key) || ps.contains other) := by
  rw [contains, slot?_set, contains]
  by_cases same : other = key <;> simp [same]

/-- A property that was removed is not there; the others are there as before. -/
theorem contains_erase (ps : Properties) (key other : String) :
    (ps.erase key).contains other = (!decide (other = key) && ps.contains other) := by
  rw [contains, slot?_erase, contains]
  by_cases same : other = key <;> simp [same]

/-- Putting a property changes nothing under other keys. -/
theorem without_set (ps : Properties) {key : String} {keys : List String} (mem : key ∈ keys)
    (slot : Slot) : (ps.set key slot).without keys = ps.without keys := by
  simp only [set, without]
  induction ps.entries with
  | nil => simp [setEntry, mem]
  | cons entry rest ih =>
    obtain ⟨k, old⟩ := entry
    by_cases same : k = key
    · simp [setEntry, same, mem]
    · simp only [setEntry, same, if_false, List.filter_cons, ih]

/-- Removing a property changes nothing under other keys. -/
theorem without_erase (ps : Properties) {key : String} {keys : List String}
    (mem : key ∈ keys) : (ps.erase key).without keys = ps.without keys := by
  simp only [erase, without, List.filter_filter]
  refine List.filter_congr fun entry _ => ?_
  by_cases same : entry.1 = key <;> simp [same, mem]

/-- Without any of the keys, all properties are under other keys. -/
theorem without_eq_entries {ps : Properties} {keys : List String}
    (absent : ∀ key ∈ keys, ps.contains key = false) : ps.without keys = ps.entries := by
  refine List.filter_eq_self.mpr fun entry mem => decide_eq_true fun known => ?_
  have present := (ps.contains_iff_mem_keys entry.1).mpr (List.mem_map_of_mem mem)
  rw [absent _ known] at present
  cases present

/-- The property under a key is found among those under other keys. -/
theorem lookup_without (ps : Properties) {key : String} {keys : List String}
    (other : key ∉ keys) : (ps.without keys).lookup key = ps.slot? key := by
  simp only [without, slot?]
  induction ps.entries with
  | nil => rfl
  | cons entry rest ih =>
    obtain ⟨k, slot⟩ := entry
    rw [List.filter_cons, List.lookup_cons]
    by_cases known : k ∈ keys
    · have : (key == k) = false := by
        rw [beq_eq_false_iff_ne]
        rintro rfl
        exact other known
      simpa [known, this] using ih
    · simp only [known, not_false_eq_true, decide_true, if_true, List.lookup_cons, ih]

end Properties

namespace Feature

/-- Two features that differ at most in the properties under some keys. -/
structure AgreeOutside (keys : List String) (f g : Feature) : Prop where
  /-- They have the same id. -/
  id : g.id = f.id
  /-- They have the same geometry. -/
  geometry : g.geometry = f.geometry
  /-- They have the same properties under other keys, in the same order. -/
  others : g.properties.without keys = f.properties.without keys

namespace AgreeOutside

variable {keys : List String} {f g h : Feature}

/-- A feature differs nowhere from itself. -/
theorem refl (keys : List String) (f : Feature) : AgreeOutside keys f f := ⟨rfl, rfl, rfl⟩

/-- Changes under the same keys add up. -/
theorem trans (first : AgreeOutside keys f g) (second : AgreeOutside keys g h) :
    AgreeOutside keys f h :=
  ⟨second.id.trans first.id, second.geometry.trans first.geometry,
    second.others.trans first.others⟩

/-- Putting a property changes the feature under its key only. -/
theorem set {key : String} (mem : key ∈ keys) (f : Feature) (slot : Slot) :
    AgreeOutside keys f (f.set key slot) :=
  ⟨rfl, rfl, f.properties.without_set mem slot⟩

/-- Removing a property changes the feature under its key only. -/
theorem erase {key : String} (mem : key ∈ keys) (f : Feature) :
    AgreeOutside keys f (f.erase key) :=
  ⟨rfl, rfl, f.properties.without_erase mem⟩

/-- Changes under some keys are changes under more keys. -/
theorem mono {more : List String} (agree : AgreeOutside keys f g) (sub : keys ⊆ more) :
    AgreeOutside more f g := by
  refine ⟨agree.id, agree.geometry, ?_⟩
  have narrow (ps : Properties) : ps.without more =
      (ps.without keys).filter fun entry => decide (entry.1 ∉ more) := by
    simp only [Properties.without, List.filter_filter]
    refine List.filter_congr fun entry _ => ?_
    by_cases known : entry.1 ∈ keys
    · simp [known, sub known]
    · simp [known]
  rw [narrow, narrow, agree.others]

/-- Under other keys both have the same property. -/
theorem slot?_eq (agree : AgreeOutside keys f g) {key : String} (other : key ∉ keys) :
    g.properties.slot? key = f.properties.slot? key := by
  rw [← g.properties.lookup_without other, agree.others, f.properties.lookup_without other]

/-- Under other keys both have a property or none has. -/
theorem contains_eq (agree : AgreeOutside keys f g) {key : String} (other : key ∉ keys) :
    g.properties.contains key = f.properties.contains key := by
  rw [Properties.contains, agree.slot?_eq other, Properties.contains]

/-- Features that differ at most where neither has a property are the same. -/
theorem eq_of_absent (agree : AgreeOutside keys f g)
    (before : ∀ key ∈ keys, f.properties.contains key = false)
    (after : ∀ key ∈ keys, g.properties.contains key = false) : g = f := by
  have others := agree.others
  rw [Properties.without_eq_entries before, Properties.without_eq_entries after] at others
  obtain ⟨id, geometry, ⟨entries, nodup⟩⟩ := f
  obtain ⟨id', geometry', ⟨entries', nodup'⟩⟩ := g
  obtain rfl : id' = id := agree.id
  obtain rfl : geometry' = geometry := agree.geometry
  obtain rfl : entries' = entries := others
  rfl

end AgreeOutside

end Feature

end DerivedTags
