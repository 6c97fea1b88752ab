import Mathlib.Data.List.Nodup
import DerivedTags.Proofs.Feature.Forcing
import DerivedTags.Proofs.Feature.UnderComputation

/-!
# Twins

Two features are twins if they hold the same values and the same computations under the
same keys, in the same order where the order matters. The numbers of deferred properties
may differ between them, as long as each of them has the same properties share one.
Computations are only compared where they heed no more than a twin has in common.
-/

namespace DerivedTags

/-- Two views of the same feature: what they show is the same up to its order, which is
the same too if it matters. -/
structure View.Alike (ordered : Prop) (v w : View) : Prop where
  /-- The id is the same. -/
  id : w.id = v.id
  /-- The geometry is the same. -/
  geometry : w.geometry = v.geometry
  /-- The concrete properties are the same. -/
  concrete : v.concrete.Perm w.concrete
  /-- Their order is the same if it matters. -/
  order : ordered → w.concrete = v.concrete
  /-- Each key comes once. -/
  nodup : (v.concrete.map Prod.fst).Nodup

/-- Views that are alike with their order are the same. -/
theorem View.Alike.eq {ordered : Prop} {v w : View} (alike : v.Alike ordered w)
    (matters : ordered) : w = v := by
  obtain ⟨id, geometry, concrete⟩ := v
  obtain ⟨rfl, rfl, -, order, -⟩ := alike
  obtain ⟨_, _, other⟩ := w
  obtain rfl : other = concrete := order matters
  rfl

/-- The computation is the same over views that are alike. -/
def Steady (ordered : Prop) (compute : View → Reading Answer) : Prop :=
  ∀ {v w : View}, v.Alike ordered w → compute w = compute v

/-- Where the order matters every computation may heed it. -/
theorem Steady.of_ordered {ordered : Prop} (matters : ordered)
    (compute : View → Reading Answer) : Steady ordered compute :=
  fun alike => congrArg compute (alike.eq matters)

/-- Two properties of twins: the same value, or the same computation. -/
inductive Slot.Twin (ordered : Prop) : Slot → Slot → Prop where
  /-- A value. -/
  | concrete (v : Json) : Twin ordered (.concrete v) (.concrete v)
  /-- A computation, under a number of its own on each side. -/
  | deferred (i j : Nat) {compute : View → Reading Answer} (steady : Steady ordered compute) :
      Twin ordered (.deferred ⟨i, compute⟩) (.deferred ⟨j, compute⟩)

namespace Properties

variable (ps : Properties)

/-- What stands in the entries is found under its key. -/
theorem slot?_of_mem {key : String} {slot : Slot} (mem : (key, slot) ∈ ps.entries) :
    ps.slot? key = some slot := by
  obtain ⟨entries, nodup⟩ := ps
  simp only [slot?] at mem ⊢
  induction entries with
  | nil => cases mem
  | cons entry rest ih =>
    rw [List.map_cons, List.nodup_cons] at nodup
    rcases List.mem_cons.mp mem with rfl | later
    · simp
    · have other : (key == entry.1) = false := by
        rw [beq_eq_false_iff_ne]
        rintro rfl
        exact nodup.1 (List.mem_map.mpr ⟨_, later, rfl⟩)
      rw [List.lookup_cons, other]
      exact ih nodup.2 later

/-- The concrete properties are those of the keys in their order. -/
theorem concrete_eq_filterMap :
    ps.concrete = ps.keys.filterMap fun key => (ps.concrete? key).map fun v => (key, v) := by
  simp only [concrete, keys, List.filterMap_map]
  refine List.filterMap_congr fun entry mem => ?_
  simp [concrete?, ps.slot?_of_mem mem]

/-- A concrete property is found under its key among the concrete ones. -/
theorem lookup_concrete (key : String) : ps.concrete.lookup key = ps.concrete? key := by
  have listed (ks : List String) :
      (ks.filterMap fun k => (ps.concrete? k).map fun v => (k, v)).lookup key =
        if key ∈ ks then ps.concrete? key else none := by
    induction ks with
    | nil => rfl
    | cons k rest ih =>
      rcases here : ps.concrete? k with _ | v
      · rw [List.filterMap_cons_none (by rw [here]; rfl), ih]
        by_cases own : key = k
        · subst own
          simp [here]
        · simp [own]
      · rw [List.filterMap_cons_some (by rw [here]; rfl), List.lookup_cons, ih]
        by_cases own : key = k
        · subst own
          simp [here]
        · have no : (key == k) = false := beq_false_of_ne own
          simp [own, no]
  rw [concrete_eq_filterMap, listed]
  split
  · rfl
  · rename_i absent
    have nothing : ps.slot? key = none :=
      List.lookup_eq_none_iff.mpr fun entry mem =>
        bne_iff_ne.mpr fun same => absent (List.mem_map.mpr ⟨entry, mem, same.symm⟩)
    rw [concrete?, nothing]
    rfl

/-- The keys of deferred properties stand in the order of the keys. -/
theorem deferredKeys_eq_filter :
    ps.deferredKeys = ps.keys.filter fun key => (ps.slot? key).any Slot.isDeferred := by
  simp only [deferredKeys, keys, List.filter_map]
  refine congrArg _ (List.filter_congr fun entry mem => ?_)
  simp [ps.slot?_of_mem mem]

/-- Each key of the concrete properties comes once. -/
theorem nodup_concrete : (ps.concrete.map Prod.fst).Nodup := by
  have keys : ps.concrete.map Prod.fst =
      ps.keys.filter fun key => (ps.concrete? key).isSome := by
    rw [concrete_eq_filterMap, List.map_filterMap, ← List.filterMap_eq_filter]
    refine List.filterMap_congr fun key _ => ?_
    cases found : ps.concrete? key <;> simp [Option.guard, found]
  rw [keys]
  exact ps.nodup_keys.filter _

end Properties

namespace Feature

/-- Two numbers stand for each other: the features hold them under the same key. -/
def Counterparts (f g : Feature) (i j : Nat) : Prop :=
  ∃ key d e, f.properties.slot? key = some (.deferred d) ∧
    g.properties.slot? key = some (.deferred e) ∧ d.id = i ∧ e.id = j

namespace Counterparts

variable {f g : Feature} {key : String} {i j : Nat}

/-- After properties were put under a key on both sides, numbers stand for each other as
before, or they are those of the two properties. -/
theorem of_set {a b : Slot} (stand : Counterparts (f.set key a) (g.set key b) i j) :
    Counterparts f g i j ∨ ∃ d e, a = .deferred d ∧ b = .deferred e ∧ d.id = i ∧ e.id = j := by
  obtain ⟨other, d, e, here, there, numbers⟩ := stand
  simp only [Feature.set, withProperties, Properties.slot?_set] at here there
  by_cases own : other = key
  · rw [if_pos own] at here there
    exact .inr ⟨d, e, Option.some.inj here, Option.some.inj there, numbers⟩
  · rw [if_neg own] at here there
    exact .inl ⟨other, d, e, here, there, numbers⟩

/-- After a key was removed on both sides, numbers stand for each other as before. -/
theorem of_erase (stand : Counterparts (f.erase key) (g.erase key) i j) :
    Counterparts f g i j := by
  obtain ⟨other, d, e, here, there, numbers⟩ := stand
  simp only [Feature.erase, withProperties, Properties.slot?_erase] at here there
  by_cases own : other = key
  · rw [if_pos own] at here
    cases here
  · rw [if_neg own] at here there
    exact ⟨other, d, e, here, there, numbers⟩

end Counterparts

/-- Two features that hold the same, in the same order if it matters. -/
structure Twin (ordered : Prop) (f g : Feature) : Prop where
  /-- The id is the same. -/
  id : g.id = f.id
  /-- The geometry is the same. -/
  geometry : g.geometry = f.geometry
  /-- The keys have the same order if it matters. -/
  order : ordered → g.properties.keys = f.properties.keys
  /-- Under each key there is the same value, the same computation, or nothing. -/
  slots : ∀ key, Option.Rel (Slot.Twin ordered) (f.properties.slot? key) (g.properties.slot? key)
  /-- Two properties share a number on both sides or on none. -/
  shared : ∀ {i j k l}, Counterparts f g i j → Counterparts f g k l → (i = k ↔ j = l)

namespace Twin

variable {ordered : Prop} {f g : Feature}

/-- A feature is its own twin if the order matters to its computations at most as much. -/
theorem refl (steady : ∀ key d, f.properties.slot? key = some (.deferred d) →
    Steady ordered d.compute) : Twin ordered f f where
  id := rfl
  geometry := rfl
  order _ := rfl
  slots key := by
    rcases slot : f.properties.slot? key with _ | ⟨v | d⟩
    · exact .none
    · exact .some (.concrete v)
    · exact .some (.deferred d.id d.id (steady key d slot))
  shared := by
    have own : ∀ {i j}, Counterparts f f i j → i = j := by
      rintro i j ⟨key, d, e, here, there, rfl, rfl⟩
      obtain rfl : d = e := by simpa using here.symm.trans there
      rfl
    intro i j k l first second
    rw [own first, own second]

/-- Whatever does not tell one computation from another gives the same of twins. -/
theorem observed (twin : Twin ordered f g) {α : Type} (observe : Option Slot → α)
    (blind : ∀ d e, observe (some (.deferred d)) = observe (some (.deferred e))) (key : String) :
    observe (g.properties.slot? key) = observe (f.properties.slot? key) := by
  have slots := twin.slots key
  generalize f.properties.slot? key = a at slots
  generalize g.properties.slot? key = b at slots
  rcases slots with @⟨a, b, _ | _⟩ | _
  · rfl
  · exact blind _ _
  · rfl

/-- Twins have the same values. -/
theorem concrete?_eq (twin : Twin ordered f g) (key : String) :
    g.properties.concrete? key = f.properties.concrete? key :=
  twin.observed (·.bind Slot.value?) (fun _ _ => rfl) key

/-- Twins have the same properties deferred. -/
theorem isDeferred_eq (twin : Twin ordered f g) (key : String) :
    (g.properties.slot? key).any Slot.isDeferred =
      (f.properties.slot? key).any Slot.isDeferred :=
  twin.observed (·.any Slot.isDeferred) (fun _ _ => rfl) key

/-- Twins have the same keys. -/
theorem contains_eq (twin : Twin ordered f g) (key : String) :
    g.properties.contains key = f.properties.contains key :=
  twin.observed Option.isSome (fun _ _ => rfl) key

/-- The keys of twins are the same up to their order. -/
theorem keys_perm (twin : Twin ordered f g) : f.properties.keys.Perm g.properties.keys := by
  refine (List.perm_ext_iff_of_nodup f.properties.nodup_keys g.properties.nodup_keys).mpr
    fun key => ?_
  rw [← Properties.keys, ← Properties.keys, ← f.properties.contains_iff_mem_keys,
    ← g.properties.contains_iff_mem_keys, twin.contains_eq]

/-- The views of twins are alike. -/
theorem view (twin : Twin ordered f g) : f.view.Alike ordered g.view where
  id := twin.id
  geometry := twin.geometry
  concrete := by
    simp only [Feature.view, Properties.concrete_eq_filterMap, twin.concrete?_eq]
    exact twin.keys_perm.filterMap _
  order matters := by
    simp only [Feature.view, Properties.concrete_eq_filterMap, twin.concrete?_eq,
      twin.order matters]
  nodup := f.properties.nodup_concrete

/-- Where the order matters, twins have deferred properties in the same order. -/
theorem deferredKeys_eq (twin : Twin ordered f g) (matters : ordered) :
    g.properties.deferredKeys = f.properties.deferredKeys := by
  simp only [Properties.deferredKeys_eq_filter, twin.isDeferred_eq, twin.order matters]

/-- Twins have equally many deferred properties. -/
theorem length_deferredKeys_eq (twin : Twin ordered f g) :
    g.properties.deferredKeys.length = f.properties.deferredKeys.length := by
  simp only [Properties.deferredKeys_eq_filter, twin.isDeferred_eq]
  exact (twin.keys_perm.filter _).length_eq.symm

/-- Twins stay so when the same is put on both sides. A computation gets a number that
is new on its side. -/
theorem set (twin : Twin ordered f g) (key : String) {a b : Slot} (same : Slot.Twin ordered a b)
    (fresh : ∀ d e, a = .deferred d → b = .deferred e →
      (∀ other c, f.properties.slot? other = some (.deferred c) → c.id ≠ d.id) ∧
        ∀ other c, g.properties.slot? other = some (.deferred c) → c.id ≠ e.id) :
    Twin ordered (f.set key a) (g.set key b) where
  id := twin.id
  geometry := twin.geometry
  order matters := by
    have keys := twin.order matters
    simp only [Feature.set, withProperties, Properties.keys_set, keys]
  slots other := by
    simp only [Feature.set, withProperties, Properties.slot?_set]
    split
    · exact .some same
    · exact twin.slots other
  shared := by
    intro i j k l first second
    rcases first.of_set with old | ⟨d, e, rfl, rfl, rfl, rfl⟩
    · rcases second.of_set with older | ⟨d, e, rfl, rfl, rfl, rfl⟩
      · exact twin.shared old older
      · obtain ⟨other, c, c', here, there, rfl, rfl⟩ := old
        obtain ⟨newHere, newThere⟩ := fresh d e rfl rfl
        exact iff_of_false (newHere other c here) (newThere other c' there)
    · rcases second.of_set with old | ⟨d', e', same, same', rfl, rfl⟩
      · obtain ⟨other, c, c', here, there, rfl, rfl⟩ := old
        obtain ⟨newHere, newThere⟩ := fresh d e rfl rfl
        exact iff_of_false (newHere other c here).symm (newThere other c' there).symm
      · obtain rfl := Slot.deferred.inj same
        obtain rfl := Slot.deferred.inj same'
        exact iff_of_true rfl rfl

/-- Twins stay so when the same key is removed. -/
theorem erase (twin : Twin ordered f g) (key : String) :
    Twin ordered (f.erase key) (g.erase key) where
  id := twin.id
  geometry := twin.geometry
  order matters := by
    have keys := twin.order matters
    simp only [Feature.erase, withProperties, Properties.keys_erase, keys]
  slots other := by
    simp only [Feature.erase, withProperties, Properties.slot?_erase]
    split
    · exact .none
    · exact twin.slots other
  shared first second := twin.shared first.of_erase second.of_erase

end Twin

end Feature

end DerivedTags
