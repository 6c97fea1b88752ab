import DerivedTags.Feature.Access
import DerivedTags.Proofs.Feature.Forcing
import DerivedTags.Proofs.Feature.Outside
import DerivedTags.Proofs.Journal.Lockstep

/-!
# A property under computation reads as absent

A deferred property that is being computed right now gives nothing to whoever reads
it, and no enumeration shows it. So its computation cannot tell the feature from one
that lacks the property: what it reads, directly or through other deferred
properties, it would read there too.
-/

namespace DerivedTags

/-- The second session is the first one while a deferred property is being computed. -/
structure Session.Inside (id : Nat) (s t : Session) : Prop where
  /-- The property is under computation in addition to what was. -/
  evaluating : t.evaluating.erase id = s.evaluating
  /-- The property is under computation. -/
  running : id ∈ t.evaluating
  /-- The same was called. -/
  calls : t.calls = s.calls
  /-- The same was logged. -/
  log : t.log = s.log
  /-- The same failures were counted. -/
  failures : t.failures = s.failures

namespace Session.Inside

variable {id : Nat} {s t : Session}

/-- An event is the same event in both sessions. -/
theorem addEvent (inside : Inside id s t) (e : Event) :
    Inside id (s.addEvent e) (t.addEvent e) := by
  obtain ⟨evaluating, running, calls, log, failures⟩ := inside
  cases e with
  | call c => exact ⟨evaluating, running, congrArg (· ++ [c]) calls, log, failures⟩
  | failure f cause =>
    refine ⟨evaluating, running, calls, ?_, congrArg FailureCount.count failures⟩
    simp only [Session.addEvent, addLines, log, failures]

/-- Both sessions can begin to compute another property. -/
theorem enter (inside : Inside id s t) {other : Nat} (different : other ≠ id) :
    Inside id (s.enter other) (t.enter other) where
  evaluating := by
    have distinct : (other == id) ≠ true := by simpa using different
    simp only [Session.enter, List.erase_cons_tail distinct, inside.evaluating]
  running := List.mem_cons_of_mem other inside.running
  calls := inside.calls
  log := inside.log
  failures := inside.failures

/-- Both sessions can end the computation of another property. -/
theorem leave (inside : Inside id s t) {other : Nat} (different : other ≠ id) :
    Inside id (s.leave other) (t.leave other) where
  evaluating := by
    simp only [Session.leave, List.erase_comm other id, inside.evaluating]
  running := (List.mem_erase_of_ne different.symm).mpr inside.running
  calls := inside.calls
  log := inside.log
  failures := inside.failures

/-- Another property is under computation in both sessions or in none. -/
theorem mem_evaluating_iff (inside : Inside id s t) {other : Nat} (different : other ≠ id) :
    other ∈ t.evaluating ↔ other ∈ s.evaluating := by
  rw [← inside.evaluating, List.mem_erase_of_ne different]

end Session.Inside

/-- A computation whose questions are answered in lockstep runs in lockstep. -/
theorem Reading.run_lockstep {α : Type} {related : Session → Session → Prop}
    {answer answer' : String → StateM Session Answer}
    (events : ∀ s t e, related s t → related (s.addEvent e) (t.addEvent e))
    (answers : ∀ key, Lockstep related (answer key) (answer' key)) (r : Reading α) :
    Lockstep related (r.run answer) (r.run answer') := by
  induction r with
  | done a => exact .pure a
  | ask key next ih => exact (answers key).bind ih
  | tell e next ih =>
    exact (Lockstep.modify fun s t h => events s t e h).bind fun _ => ih

/-- Another deferred property is computed in lockstep. -/
theorem Deferred.evaluate_inside {id : Nat} {d : Deferred} (different : d.id ≠ id)
    {answer answer' : String → StateM Session Answer}
    (answers : ∀ key, Lockstep (Session.Inside id) (answer key) (answer' key)) (view : View) :
    Lockstep (Session.Inside id) (d.evaluate answer view) (d.evaluate answer' view) := by
  intro s t inside
  rw [evaluate_apply, evaluate_apply]
  by_cases running : d.id ∈ s.evaluating
  · rw [if_pos running, if_pos ((inside.mem_evaluating_iff different).mpr running)]
    exact ⟨rfl, inside⟩
  · rw [if_neg running, if_neg (mt (inside.mem_evaluating_iff different).mp running)]
    obtain ⟨same, after⟩ :=
      (d.compute view).run_lockstep (fun _ _ e h => h.addEvent e) answers _ _
        (inside.enter different)
    exact ⟨same, after.leave different⟩

namespace Properties

variable {ps : Properties} {key : String}

/-- A property under a new key comes last. -/
theorem entries_set_of_absent (absent : ps.contains key = false) (slot : Slot) :
    (ps.set key slot).entries = ps.entries ++ [(key, slot)] := by
  have missing : key ∉ ps.keys := fun mem => by
    rw [(ps.contains_iff_mem_keys key).mpr mem] at absent
    cases absent
  simp only [set, keys] at missing ⊢
  generalize ps.entries = entries at missing ⊢
  induction entries with
  | nil => rfl
  | cons entry rest ih =>
    obtain ⟨k, old⟩ := entry
    rw [List.map_cons, List.mem_cons, not_or] at missing
    have other : ¬k = key := fun same => missing.1 same.symm
    rw [setEntry, if_neg other, ih missing.2, List.cons_append]

/-- A deferred property under a new key does not show among the concrete ones. -/
theorem concrete_set_deferred (absent : ps.contains key = false) (d : Deferred) :
    (ps.set key (.deferred d)).concrete = ps.concrete := by
  simp [concrete, entries_set_of_absent absent, List.filterMap_append, Slot.value?]

/-- Without a property there is nothing under its key. -/
theorem slot?_of_absent (absent : ps.contains key = false) : ps.slot? key = none :=
  Option.isNone_iff_eq_none.mp (Option.isSome_eq_false_iff.mp absent)

/-- A deferred property under a new key has no concrete value. -/
theorem concrete?_set_deferred (absent : ps.contains key = false) (d : Deferred)
    (other : String) : (ps.set key (.deferred d)).concrete? other = ps.concrete? other := by
  rw [concrete?, slot?_set, concrete?]
  by_cases self : other = key
  · rw [if_pos self, self, slot?_of_absent absent]
    rfl
  · rw [if_neg self]

/-- A deferred property under a new key is the last deferred one. -/
theorem deferredKeys_set_deferred (absent : ps.contains key = false) (d : Deferred) :
    (ps.set key (.deferred d)).deferredKeys = ps.deferredKeys ++ [key] := by
  simp [deferredKeys, entries_set_of_absent absent, Slot.isDeferred]

/-- A new property that is removed again leaves everything as it was. -/
theorem erase_set_of_absent (absent : ps.contains key = false) (slot : Slot) :
    (ps.set key slot).erase key = ps := by
  have missing : ∀ entry ∈ ps.entries, (entry.1 != key) = true := by
    intro entry mem
    rw [bne_iff_ne]
    rintro rfl
    rw [(ps.contains_iff_mem_keys entry.1).mpr (List.mem_map_of_mem mem)] at absent
    cases absent
  obtain ⟨entries, nodup⟩ := ps
  simp only [erase, mk.injEq, entries_set_of_absent absent]
  rw [List.filter_append, List.filter_eq_self.mpr missing]
  simp

/-- Removing a property that is not there changes nothing. -/
theorem erase_of_absent (absent : ps.contains key = false) : ps.erase key = ps := by
  have twice := erase_set_of_absent absent (.concrete .null)
  obtain ⟨entries, nodup⟩ := ps
  simp only [erase, mk.injEq, entries_set_of_absent absent] at twice ⊢
  simpa using twice

/-- Of two properties put under a key after one another the last one counts. -/
theorem set_set (ps : Properties) (key : String) (first second : Slot) :
    (ps.set key first).set key second = ps.set key second := by
  obtain ⟨entries, nodup⟩ := ps
  simp only [set, mk.injEq]
  clear nodup
  induction entries with
  | nil => simp [setEntry]
  | cons entry rest ih =>
    obtain ⟨k, old⟩ := entry
    by_cases same : k = key <;> simp [setEntry, same, ih]

end Properties

namespace Feature

/-- The numbers of deferred properties were given out. -/
def Issued (f : Feature) (s : Session) : Prop :=
  ∀ key d, f.properties.slot? key = some (.deferred d) → d.id < s.nextDeferred

variable {f : Feature} {key : String}

/-- Computations see the same of a feature with a further deferred property. -/
theorem view_set_deferred (absent : f.properties.contains key = false) (d : Deferred) :
    (f.set key (.deferred d)).view = f.view := by
  simp only [view, set, withProperties, Properties.concrete_set_deferred absent]

/-- While a property is being computed, every read of the feature gives what it
would give without the property. -/
theorem getWithin_inside (absent : f.properties.contains key = false) {d : Deferred}
    (fresh : ∀ other e, f.properties.slot? other = some (.deferred e) → e.id ≠ d.id)
    (depth : Nat) (other : String) :
    Lockstep (Session.Inside d.id) (f.getWithin depth other)
      ((f.set key (.deferred d)).getWithin depth other) := by
  induction depth generalizing other with
  | zero =>
    have same := Properties.concrete?_set_deferred absent d other
    simp only [getWithin, set, withProperties, same]
    exact .pure _
  | succ depth ih =>
    have slots : (f.set key (.deferred d)).properties.slot? other =
        if other = key then some (.deferred d) else f.properties.slot? other :=
      f.properties.slot?_set key other (.deferred d)
    by_cases self : other = key
    · subst self
      rw [if_pos rfl] at slots
      intro s t inside
      simp only [getWithin, slots, Properties.slot?_of_absent absent, Session.pure_apply,
        Deferred.evaluate_apply, if_pos inside.running, true_and]
      exact inside
    · rw [if_neg self] at slots
      cases slot : f.properties.slot? other with
      | none =>
        simp only [getWithin, slots, slot]
        exact .pure _
      | some found =>
        cases found with
        | concrete v =>
          simp only [getWithin, slots, slot]
          exact .pure _
        | deferred e =>
          simp only [getWithin, slots, slot, view_set_deferred absent]
          exact Deferred.evaluate_inside (fresh other e slot) ih f.view

/-- A new deferred property that is read gives what its computation gives over the
feature without it. Calls, log and failures are those of that computation. -/
theorem get_new (absent : f.properties.contains key = false) {d : Deferred}
    (fresh : ∀ other e, f.properties.slot? other = some (.deferred e) → e.id ≠ d.id)
    {s t : Session} (idle : d.id ∉ t.evaluating) (begun : Session.Inside d.id s (t.enter d.id)) :
    let plain := f.run (d.compute f.view) s
    let read := (f.set key (.deferred d)).get key t
    read.1 = plain.1 ∧ read.2.calls = plain.2.calls ∧ read.2.log = plain.2.log ∧
      read.2.failures = plain.2.failures := by
  let deeper := (f.set key (.deferred d)).getWithin f.properties.deferredKeys.length
  have slot : (f.set key (.deferred d)).properties.slot? key = some (.deferred d) := by
    simp [set, withProperties, Properties.slot?_set]
  have depth : (f.set key (.deferred d)).properties.deferredKeys.length =
      f.properties.deferredKeys.length + 1 := by
    simp [set, withProperties, Properties.deferredKeys_set_deferred absent]
  have read : (f.set key (.deferred d)).get key t =
      (((d.compute f.view).run deeper (t.enter d.id)).1,
        ((d.compute f.view).run deeper (t.enter d.id)).2.leave d.id) := by
    simp only [get, depth, getWithin, slot, Deferred.evaluate_apply, if_neg idle,
      view_set_deferred absent, deeper]
  obtain ⟨same, after⟩ :=
    (d.compute f.view).run_lockstep (fun _ _ e h => h.addEvent e)
      (getWithin_inside absent fresh f.properties.deferredKeys.length) s (t.enter d.id) begun
  simp only [read]
  exact ⟨same.symm, after.calls, after.log, after.failures⟩

end Feature

end DerivedTags
