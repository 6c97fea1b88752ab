import DerivedTags.Feature.Reading
import DerivedTags.Geo.Geometry

/-!
# Properties of a feature

A property is a concrete value or a computation that runs at every read.
Properties keep the order in which their keys came; a new value under an old
key keeps the key's place. Enumerations see concrete values only, so that no
one forces a computation by accident.
-/

namespace DerivedTags

/-- What a computation sees of a feature besides the properties it asks for. -/
structure View where
  /-- The id of the feature. -/
  id : String
  /-- Its geometry. -/
  geometry : Option Geo.Geometry
  /-- Its concrete properties in order. -/
  concrete : List (String × Json)

/-- A property computed when it is read. Copies share the number, by which a
computation that reads itself is recognised. -/
structure Deferred where
  /-- The number. -/
  id : Nat
  /-- The computation. -/
  compute : View → Reading Answer

/-- A property. -/
inductive Slot where
  /-- A value. -/
  | concrete (v : Json)
  /-- A computation. -/
  | deferred (d : Deferred)

namespace Slot

/-- Whether a property is computed when it is read. -/
def isDeferred : Slot → Bool
  | .deferred _ => true
  | .concrete _ => false

/-- The value of a concrete property. -/
def value? : Slot → Option Json
  | .concrete v => some v
  | .deferred _ => none

end Slot

/-- Put a property under a key: in its old place, or at the end. -/
def setEntry (key : String) (slot : Slot) : List (String × Slot) → List (String × Slot)
  | [] => [(key, slot)]
  | (k, old) :: rest =>
    if k = key then (key, slot) :: rest else (k, old) :: setEntry key slot rest

/-- The keys after a property was put: the same, or one more at the end. -/
theorem keys_setEntry (key : String) (slot : Slot) (entries : List (String × Slot)) :
    (setEntry key slot entries).map Prod.fst =
      if key ∈ entries.map Prod.fst then entries.map Prod.fst
      else entries.map Prod.fst ++ [key] := by
  induction entries with
  | nil => simp [setEntry]
  | cons entry rest ih =>
    obtain ⟨k, old⟩ := entry
    by_cases same : k = key
    · simp [setEntry, same]
    · simp only [setEntry, same, if_false, List.map_cons, ih, List.mem_cons]
      have other : ¬key = k := fun h => same h.symm
      simp only [other, false_or]
      split <;> simp

/-- No key comes twice after a property was put. -/
theorem nodup_setEntry {key : String} {slot : Slot} {entries : List (String × Slot)}
    (h : (entries.map Prod.fst).Nodup) : ((setEntry key slot entries).map Prod.fst).Nodup := by
  rw [keys_setEntry]
  split
  · exact h
  · rename_i absent
    refine List.nodup_append.mpr ⟨h, by simp, ?_⟩
    intro a ha b hb
    rw [List.mem_singleton] at hb
    rintro rfl
    exact absent (hb ▸ ha)

/-- Properties by key, in order. -/
structure Properties where
  /-- The keys and their properties. -/
  entries : List (String × Slot)
  /-- Each key comes once. -/
  nodup_keys : (entries.map Prod.fst).Nodup := by simp

namespace Properties

/-- No properties. -/
def empty : Properties where
  entries := []

/-- The keys in order. -/
def keys (ps : Properties) : List String := ps.entries.map Prod.fst

/-- The property under a key. -/
def slot? (ps : Properties) (key : String) : Option Slot := ps.entries.lookup key

/-- Whether there is a property under a key. -/
def contains (ps : Properties) (key : String) : Bool := (ps.slot? key).isSome

/-- The value of a concrete property. -/
def concrete? (ps : Properties) (key : String) : Option Json := (ps.slot? key).bind Slot.value?

/-- The concrete properties in order. -/
def concrete (ps : Properties) : List (String × Json) :=
  ps.entries.filterMap fun entry => entry.2.value?.map fun v => (entry.1, v)

/-- The concrete properties as a JSON object. -/
def toJson (ps : Properties) : Json := Json.object ps.concrete

/-- The keys of deferred properties in order. -/
def deferredKeys (ps : Properties) : List String :=
  (ps.entries.filter fun entry => entry.2.isDeferred).map Prod.fst

/-- Put a property under a key. -/
def set (ps : Properties) (key : String) (slot : Slot) : Properties where
  entries := setEntry key slot ps.entries
  nodup_keys := nodup_setEntry ps.nodup_keys

/-- Remove the property under a key; the others keep their order. -/
def erase (ps : Properties) (key : String) : Properties where
  entries := ps.entries.filter fun entry => entry.1 != key
  nodup_keys := ps.nodup_keys.sublist (List.filter_sublist.map _)

/-- The number of properties. -/
def size (ps : Properties) : Nat := ps.entries.length

/-- Concrete properties with the given values. -/
def ofMembers (members : List (String × Json)) : Properties :=
  members.foldl (fun ps m => ps.set m.1 (.concrete m.2)) empty

/-- The keys after a property was put. -/
theorem keys_set (ps : Properties) (key : String) (slot : Slot) :
    (ps.set key slot).keys = if key ∈ ps.keys then ps.keys else ps.keys ++ [key] :=
  keys_setEntry key slot ps.entries

/-- The keys after a property was removed. -/
theorem keys_erase (ps : Properties) (key : String) :
    (ps.erase key).keys = ps.keys.filter (· != key) := by
  simp only [erase, keys, List.filter_map]
  rfl

/-- The property under a key after one was put. -/
theorem slot?_set (ps : Properties) (key other : String) (slot : Slot) :
    (ps.set key slot).slot? other = if other = key then some slot else ps.slot? other := by
  simp only [set, slot?]
  induction ps.entries with
  | nil =>
    by_cases h : other = key
    · simp [setEntry, h]
    · have : (other == key) = false := by simpa using h
      simp [setEntry, List.lookup_cons, h, this]
  | cons entry rest ih =>
    obtain ⟨k, old⟩ := entry
    by_cases same : k = key
    · by_cases h : other = key
      · simp [setEntry, same, h]
      · have : (other == key) = false := by simpa using h
        simp [setEntry, same, List.lookup_cons, h, this]
    · simp only [setEntry, same, if_false, List.lookup_cons]
      by_cases h : other = k
      · have ne : ¬k = key := same
        simp [h, ne]
      · have : (other == k) = false := by simpa using h
        simp only [this, ih]

/-- The property under a key after one was removed. -/
theorem slot?_erase (ps : Properties) (key other : String) :
    (ps.erase key).slot? other = if other = key then none else ps.slot? other := by
  simp only [erase, slot?]
  induction ps.entries with
  | nil => simp
  | cons entry rest ih =>
    obtain ⟨k, old⟩ := entry
    by_cases same : k = key
    · subst same
      simp only [List.filter_cons, bne_self_eq_false, Bool.false_eq_true, if_false, ih]
      by_cases h : other = k
      · simp [h]
      · have : (other == k) = false := by simpa using h
        simp [List.lookup_cons, h, this]
    · have keep : (k != key) = true := by simpa using same
      simp only [List.filter_cons, keep, if_true, List.lookup_cons]
      by_cases h : other = k
      · simp [h, same]
      · have : (other == k) = false := by simpa using h
        simp only [this, ih]

end Properties

end DerivedTags
