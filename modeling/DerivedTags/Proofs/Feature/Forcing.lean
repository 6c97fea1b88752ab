import DerivedTags.Feature.Access
import DerivedTags.Proofs.Journal.Running

/-!
# Forcing a computation that asks nothing

A computation that is done without asking for a property leaves the session as
it was, whatever else the feature holds. Forced, its value takes the place of
the computation; without a value the property goes.
-/

namespace DerivedTags

open DerivedTags.Snippet (Panic)

/-- Computing a deferred property enters it and leaves it again, unless it is under
computation already. -/
theorem Deferred.evaluate_apply (answer : String → StateM Session Answer) (view : View)
    (d : Deferred) (s : Session) :
    d.evaluate answer view s =
      if d.id ∈ s.evaluating then (.ok none, s)
      else
        let computed := (d.compute view).run answer (s.enter d.id)
        (computed.1, computed.2.leave d.id) := by
  by_cases running : d.id ∈ s.evaluating
  · simp [evaluate, running]
  · simp [evaluate, running]

/-- What a computation gives that is under computation already, or else is done
with an answer. -/
def Deferred.answered (d : Deferred) (s : Session) (a : Answer) : Answer :=
  if d.id ∈ s.evaluating then .ok none else a

/-- A computation that asks nothing leaves the session as it was. -/
theorem Deferred.evaluate_done {d : Deferred} {view : View} {a : Answer}
    (done : d.compute view = .done a) (answer : String → StateM Session Answer) (s : Session) :
    d.evaluate answer view s = (d.answered s a, s) := by
  rw [evaluate_apply, answered]
  split
  · rfl
  · simp only [done, Reading.run, Session.pure_apply, Session.enter, Session.leave,
      List.erase_cons_head]

/-- A deferred property is found among the deferred ones. -/
theorem Properties.mem_deferredKeys {ps : Properties} {key : String} {d : Deferred}
    (slot : ps.slot? key = some (.deferred d)) : key ∈ ps.deferredKeys := by
  simp only [slot?] at slot
  simp only [deferredKeys, List.mem_map, List.mem_filter]
  generalize ps.entries = entries at slot ⊢
  induction entries with
  | nil => cases slot
  | cons entry rest ih =>
    obtain ⟨k, old⟩ := entry
    rw [List.lookup_cons] at slot
    by_cases same : key = k
    · simp only [same, beq_self_eq_true, Option.some.injEq] at slot
      exact ⟨(k, old), ⟨List.mem_cons_self, by simp [slot, Slot.isDeferred]⟩, same.symm⟩
    · have : (key == k) = false := by simpa using same
      simp only [this] at slot
      obtain ⟨found, ⟨mem, isDeferred⟩, named⟩ := ih slot
      exact ⟨found, ⟨List.mem_cons_of_mem _ mem, isDeferred⟩, named⟩

namespace Feature

/-- Reading a computation that asks nothing gives what it is done with. -/
theorem get_done {f : Feature} {key : String} {d : Deferred} {a : Answer}
    (slot : f.properties.slot? key = some (.deferred d)) (done : d.compute f.view = .done a)
    (s : Session) : f.get key s = (d.answered s a, s) := by
  have mem := Properties.mem_deferredKeys slot
  cases count : f.properties.deferredKeys.length with
  | zero =>
    rw [List.length_eq_zero_iff.mp count] at mem
    cases mem
  | succ depth =>
    simp only [get, count, getWithin, slot]
    exact Deferred.evaluate_done done _ s

/-- What a feature becomes when an answer takes the place of a deferred property:
without a value the property goes, and a panic leaves everything as it was. -/
def kept (f : Feature) (key : String) : Answer → Feature
  | .ok (some v) => f.set key (.concrete v)
  | .ok none => f.erase key
  | .error _ => f

/-- Forcing a deferred property reads it once and keeps the answer. -/
theorem force_apply {f : Feature} {key : String} {d : Deferred}
    (slot : f.properties.slot? key = some (.deferred d)) (s : Session) :
    f.force key s = (((f.get key s).1, f.kept key (f.get key s).1), (f.get key s).2) := by
  simp only [force, slot, Session.bind_apply]
  rcases f.get key s with ⟨panic | _ | v, after⟩ <;> rfl

/-- Forcing leaves a feature alone, or keeps the answer in the place of the property. -/
theorem force_snd (f : Feature) (key : String) (s : Session) :
    (f.force key s).1.2 = f ∨ (f.force key s).1.2 = f.kept key (f.get key s).1 := by
  cases slot : f.properties.slot? key with
  | none => exact .inl (by simp [force, slot])
  | some found =>
    cases found with
    | concrete v => exact .inl (by simp [force, slot])
    | deferred d => exact .inr (by rw [force_apply slot])

/-- Forcing a computation that asks nothing puts its value in its place. -/
theorem force_some {f : Feature} {key : String} {d : Deferred} {a : Answer} {v : Json}
    (slot : f.properties.slot? key = some (.deferred d)) (done : d.compute f.view = .done a)
    {s : Session} (given : d.answered s a = .ok (some v)) :
    f.force key s = ((.ok (some v), f.set key (.concrete v)), s) := by
  rw [force_apply slot, get_done slot done, given, kept]

/-- Forcing a computation that asks nothing and gives nothing removes it. -/
theorem force_none {f : Feature} {key : String} {d : Deferred} {a : Answer}
    (slot : f.properties.slot? key = some (.deferred d)) (done : d.compute f.view = .done a)
    {s : Session} (given : d.answered s a = .ok none) :
    f.force key s = ((.ok none, f.erase key), s) := by
  rw [force_apply slot, get_done slot done, given, kept]

end Feature

end DerivedTags
