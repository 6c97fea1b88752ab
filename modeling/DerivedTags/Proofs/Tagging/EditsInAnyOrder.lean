import DerivedTags.Proofs.Tagging.SourceTags
import DerivedTags.Proofs.Tagging.TwinRuns

/-!
# Edits in any order

Edits under different keys make the same of a feature in any order, up to the order of
the keys that are new and up to the numbers of the computations that are left: each key
holds what its own edit put there, under a number that nothing else has.
-/

namespace DerivedTags

open DerivedTags.Standard

namespace Feature

/-- From a number on, no number is shared by two properties. -/
def Apart (least : Nat) (f : Feature) : Prop :=
  ∀ key other d e, f.properties.slot? key = some (.deferred d) →
    f.properties.slot? other = some (.deferred e) → least ≤ d.id → d.id = e.id → key = other

namespace Apart

variable {f : Feature} {least : Nat} {s : Session}

/-- Numbers that were not given out yet are not shared. -/
theorem of_issued (issued : f.Issued s) : f.Apart s.nextDeferred :=
  fun key _ d _ slot _ new _ => absurd (issued key d slot) (Nat.not_lt_of_le new)

/-- A value may be put. -/
theorem put (apart : f.Apart least) (key : String) (v : Json) :
    (f.set key (.concrete v)).Apart least := by
  intro one other d e first second
  simp only [Feature.set, withProperties, Properties.slot?_set] at first second
  split at first
  · cases first
  split at second
  · cases second
  exact apart one other d e first second

/-- A key may be removed. -/
theorem remove (apart : f.Apart least) (key : String) : (f.erase key).Apart least := by
  intro one other d e first second
  simp only [Feature.erase, withProperties, Properties.slot?_erase] at first second
  split at first
  · cases first
  split at second
  · cases second
  exact apart one other d e first second

/-- A computation may be left under a new number. -/
theorem leave (apart : f.Apart least) (issued : f.Issued s) (key : String)
    (compute : View → Reading Answer) :
    (f.set key (.deferred ⟨s.nextDeferred, compute⟩)).Apart least := by
  intro one other d e first second bound same
  simp only [Feature.set, withProperties, Properties.slot?_set] at first second
  by_cases mine : one = key <;> by_cases theirs : other = key
  · rw [mine, theirs]
  · rw [if_pos mine] at first
    rw [if_neg theirs] at second
    obtain rfl := Slot.deferred.inj (Option.some.inj first)
    exact absurd same (Nat.ne_of_gt (issued other e second))
  · rw [if_neg mine] at first
    rw [if_pos theirs] at second
    obtain rfl := Slot.deferred.inj (Option.some.inj second)
    exact absurd same (Nat.ne_of_lt (issued one d first))
  · rw [if_neg mine] at first
    rw [if_neg theirs] at second
    exact apart one other d e first second bound same

end Apart

end Feature

namespace Edit

/-- What edits under different keys, carried out in any order, make of a feature. New
computations have numbers from `least` on. -/
structure Wrought (edits : List Edit) (f : Feature) (least : Nat) (h : Feature) : Prop where
  /-- The id stays. -/
  id : h.id = f.id
  /-- The geometry stays. -/
  geometry : h.geometry = f.geometry
  /-- Other keys hold what they held. -/
  kept : ∀ key, key ∉ edits.map Edit.key → h.properties.slot? key = f.properties.slot? key
  /-- A key holds the value that was put there. -/
  put : ∀ key v, .insert key v ∈ edits → h.properties.slot? key = some (.concrete v)
  /-- A key holds the computation that was left there. -/
  left : ∀ key compute, .defer key compute ∈ edits →
    ∃ id, least ≤ id ∧ h.properties.slot? key = some (.deferred ⟨id, compute⟩)
  /-- New numbers are not shared. -/
  apart : h.Apart least

variable {edits : List Edit} {f : Feature} {s : Session} {least : Nat}

/-- Edits keep new numbers unshared. -/
theorem applyAll_apart (issued : f.Issued s) (apart : f.Apart least) :
    (applyAll edits f s).1.Apart least := by
  induction edits generalizing f s with
  | nil => exact apart
  | cons e rest ih =>
    cases e with
    | insert key v => exact ih (Upkeep.issued.put key v issued) (apart.put key v)
    | remove key => exact ih (Upkeep.issued.remove key issued) (apart.remove key)
    | defer key compute =>
      have later : f.Issued (newDeferred s).2 := Upkeep.issued.mono (Nat.le_succ _) issued
      exact ih (Upkeep.issued.leave key (Nat.lt_succ_self s.nextDeferred) trivial later)
        (apart.leave issued key compute)

/-- Under its own key an edit puts a value. -/
theorem slot?_apply_insert (key : String) (v : Json) (f : Feature) (s : Session) :
    ((Edit.insert key v).apply f s).1.properties.slot? key = some (.concrete v) := by
  simp [apply, Feature.set, Feature.withProperties, Properties.slot?_set]

/-- Under its own key an edit leaves a computation. -/
theorem slot?_apply_defer (key : String) (compute : View → Reading Answer) (f : Feature)
    (s : Session) : ((Edit.defer key compute).apply f s).1.properties.slot? key =
      some (.deferred ⟨s.nextDeferred, compute⟩) := by
  change (f.set key (.deferred ⟨s.nextDeferred, compute⟩)).properties.slot? key = _
  simp [Feature.set, Feature.withProperties, Properties.slot?_set]

/-- After edits under different keys each key holds what its own edit put there. -/
theorem applyAll_wrought (nodup : (edits.map Edit.key).Nodup) (issued : f.Issued s) :
    Wrought edits f s.nextDeferred (applyAll edits f s).1 := by
  suffices slots : ∀ least ≤ s.nextDeferred,
      (∀ key v, .insert key v ∈ edits →
          (applyAll edits f s).1.properties.slot? key = some (.concrete v)) ∧
        ∀ key compute, .defer key compute ∈ edits → ∃ id, least ≤ id ∧
          (applyAll edits f s).1.properties.slot? key = some (.deferred ⟨id, compute⟩) by
    have agree : Feature.AgreeOutside (edits.map Edit.key) f (applyAll edits f s).1 :=
      applyAll_agree (fun e mem => List.mem_map_of_mem mem) f s
    exact ⟨agree.id, agree.geometry, fun key other => agree.slot?_eq other,
      (slots _ (Nat.le_refl _)).1, (slots _ (Nat.le_refl _)).2,
      applyAll_apart issued (.of_issued issued)⟩
  intro least bound
  clear issued
  induction edits generalizing f s with
  | nil => simp
  | cons e rest ih =>
    rw [List.map_cons, List.nodup_cons] at nodup
    have step : s.Precedes (e.apply f s).2 := Orderly.discipline.edit e f s
    obtain ⟨puts, leaves⟩ := ih (f := (e.apply f s).1) nodup.2 (Nat.le_trans bound step.numbers)
    have own : (applyAll (e :: rest) f s).1.properties.slot? e.key =
        (e.apply f s).1.properties.slot? e.key :=
      (applyAll_agree (fun e mem => List.mem_map_of_mem mem) _ _).slot?_eq nodup.1
    refine ⟨fun key v mem => ?_, fun key compute mem => ?_⟩
    · rcases List.mem_cons.mp mem with rfl | later
      · exact own.trans (slot?_apply_insert key v f s)
      · exact puts key v later
    · rcases List.mem_cons.mp mem with rfl | later
      · exact ⟨s.nextDeferred, bound, own.trans (slot?_apply_defer key compute f s)⟩
      · exact leaves key compute later

/-- After edits the numbers in use were given out. -/
theorem applyAll_known (known : f.Known s) {last : Session}
    (evaluating : last.evaluating = s.evaluating)
    (next : last.nextDeferred = (applyAll edits f s).2.nextDeferred) :
    (applyAll edits f s).1.Known last where
  numbered := by
    intro id running
    rw [evaluating] at running
    rw [next]
    exact Nat.lt_of_lt_of_le (known.numbered id running)
      (Orderly.discipline.edits edits f s).numbers
  issued := by
    have permitted : ∀ e ∈ edits, Upkeep.issued.Permits e := fun e _ => by
      cases e <;> exact trivial
    have issued := Upkeep.issued.edits permitted known.issued
    intro key d slot
    rw [next]
    exact issued key d slot

namespace Wrought

variable {others : List Edit} {least bound : Nat} {h k : Feature}

/-- The order of the edits does not matter. -/
theorem perm (wrought : Wrought edits f least h) (perm : edits.Perm others) :
    Wrought others f least h where
  id := wrought.id
  geometry := wrought.geometry
  kept key other := wrought.kept key fun mem => other ((perm.map Edit.key).mem_iff.mp mem)
  put key v mem := wrought.put key v (perm.mem_iff.mpr mem)
  left key compute mem := wrought.left key compute (perm.mem_iff.mpr mem)
  apart := wrought.apart

variable (here : Wrought edits f least h) (there : Wrought edits f bound k)
  (proposes : ∀ e ∈ edits, Proposes e)

include here there proposes

/-- Each key holds what it held, or the same value or computation from the geometry was
put there on both sides. -/
theorem slots (key : String) :
    (h.properties.slot? key = f.properties.slot? key ∧
        k.properties.slot? key = f.properties.slot? key) ∨
      (∃ v, h.properties.slot? key = some (.concrete v) ∧
        k.properties.slot? key = some (.concrete v)) ∨
      ∃ i j measure, least ≤ i ∧ bound ≤ j ∧
        h.properties.slot? key = some (.deferred ⟨i, fromGeometry measure⟩) ∧
        k.properties.slot? key = some (.deferred ⟨j, fromGeometry measure⟩) := by
  by_cases mem : key ∈ edits.map Edit.key
  · obtain ⟨e, edit, rfl⟩ := List.mem_map.mp mem
    cases proposes e edit with
    | insert key v => exact .inr (.inl ⟨v, here.put key v edit, there.put key v edit⟩)
    | defer key measure =>
      obtain ⟨i, new, slot⟩ := here.left key _ edit
      obtain ⟨j, newThere, slotThere⟩ := there.left key _ edit
      exact .inr (.inr ⟨i, j, measure, new, newThere, slot, slotThere⟩)
  · exact .inl ⟨here.kept key mem, there.kept key mem⟩

/-- Numbers that stand for each other are the same one of before, or new on both sides. -/
theorem numbers {key : String} {d e : Deferred}
    (slot : h.properties.slot? key = some (.deferred d))
    (slotThere : k.properties.slot? key = some (.deferred e)) :
    (f.properties.slot? key = some (.deferred d) ∧ e = d) ∨ (least ≤ d.id ∧ bound ≤ e.id) := by
  rcases here.slots there proposes key with ⟨same, sameThere⟩ | ⟨v, put, -⟩ |
    ⟨i, j, measure, new, newThere, left, leftThere⟩
  · rw [← same, slotThere] at sameThere
    rw [slot] at sameThere
    exact .inl ⟨same ▸ slot, Slot.deferred.inj (Option.some.inj sameThere)⟩
  · cases slot.symm.trans put
  · obtain rfl := Slot.deferred.inj (Option.some.inj (slot.symm.trans left))
    obtain rfl := Slot.deferred.inj (Option.some.inj (slotThere.symm.trans leftThere))
    exact .inr ⟨new, newThere⟩

/-- What the same edits make of a feature in two orders are twins, up to their order. -/
theorem twin (steady : ∀ key d, f.properties.slot? key = some (.deferred d) →
      Steady False d.compute) (old : ∀ key d, f.properties.slot? key = some (.deferred d) →
      d.id < least ∧ d.id < bound) : h.Twin False k where
  id := there.id.trans here.id.symm
  geometry := there.geometry.trans here.geometry.symm
  order := False.elim
  slots key := by
    rcases here.slots there proposes key with ⟨same, sameThere⟩ | ⟨v, put, putThere⟩ |
      ⟨i, j, measure, -, -, left, leftThere⟩
    · rw [same, sameThere]
      exact (Feature.Twin.refl steady).slots key
    · rw [put, putThere]
      exact .some (.concrete v)
    · rw [left, leftThere]
      exact .some (.deferred i j (fromGeometry_steady measure))
  shared := by
    rintro i j i' j' ⟨key, d, e, slot, slotThere, rfl, rfl⟩
      ⟨other, d', e', slot', slotThere', rfl, rfl⟩
    rcases here.numbers there proposes slot slotThere with ⟨held, rfl⟩ | ⟨new, newThere⟩ <;>
      rcases here.numbers there proposes slot' slotThere' with ⟨held', rfl⟩ | ⟨new', newThere'⟩
    · exact .rfl
    · obtain ⟨lower, lowerThere⟩ := old key e held
      exact iff_of_false (Nat.ne_of_lt (Nat.lt_of_lt_of_le lower new'))
        (Nat.ne_of_lt (Nat.lt_of_lt_of_le lowerThere newThere'))
    · obtain ⟨lower, lowerThere⟩ := old other e' held'
      exact iff_of_false (Nat.ne_of_gt (Nat.lt_of_lt_of_le lower new))
        (Nat.ne_of_gt (Nat.lt_of_lt_of_le lowerThere newThere))
    · refine ⟨fun same => ?_, fun same => ?_⟩
      · obtain rfl := here.apart key other d d' slot slot' new same
        rw [Slot.deferred.inj (Option.some.inj (slotThere.symm.trans slotThere'))]
      · obtain rfl := there.apart key other e e' slotThere slotThere' newThere same
        rw [Slot.deferred.inj (Option.some.inj (slot.symm.trans slot'))]

end Wrought

end Edit

end DerivedTags
