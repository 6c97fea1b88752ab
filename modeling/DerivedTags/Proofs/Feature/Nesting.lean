import Mathlib.Data.Finset.Card
import Mathlib.Data.Finset.Dedup
import Mathlib.Logic.Relation
import DerivedTags.Proofs.Feature.Forcing
import DerivedTags.Proofs.Tagging.OrderlyRuns

/-!
# How deep reads nest

A read is taken step by step, without any bound on how deep computations nest: the
computations that wait for an answer stand in a stack. No property is computed while it
is being computed already, so those in the stack are all different, the stack never
outgrows the deferred properties, and the read ends. What it gives then is what reading
with bounded depth gives, and nothing stays marked as being computed.
-/

namespace DerivedTags

/-- A computation that waits for the property it asked for. -/
structure Waiting where
  /-- The number of the property, which is under computation. -/
  id : Nat
  /-- How the computation goes on with the answer. -/
  next : Answer → Reading Answer

/-- A read under way. -/
structure OngoingRead where
  /-- The session. -/
  session : Session
  /-- The computations that wait, innermost first. -/
  waiting : List Waiting
  /-- What is left of the innermost computation. -/
  current : Reading Answer

/-- The number of a deferred property. -/
def Slot.number? : Slot → Option Nat
  | .concrete _ => none
  | .deferred d => some d.id

namespace Feature

/-- The numbers of the deferred properties. Properties that share one count once. -/
def deferredNumbers (f : Feature) : Finset Nat :=
  (f.properties.entries.filterMap fun entry => entry.2.number?).toFinset

/-- The numbers of deferred properties that are not under computation. -/
def idleNumbers (f : Feature) (s : Session) : Finset Nat :=
  f.deferredNumbers.filter fun id => id ∉ s.evaluating

variable {f : Feature} {key : String} {d : Deferred} {s : Session}

/-- A deferred property has its number among those of the feature. -/
theorem mem_deferredNumbers (slot : f.properties.slot? key = some (.deferred d)) :
    d.id ∈ f.deferredNumbers := by
  obtain ⟨before, after, entries, -⟩ := List.lookup_eq_some_iff.mp slot
  have mem : (key, Slot.deferred d) ∈ f.properties.entries := by simp [entries]
  exact List.mem_toFinset.mpr (List.mem_filterMap.mpr ⟨_, mem, rfl⟩)

/-- There are at most as many numbers as deferred properties. -/
theorem card_deferredNumbers_le (f : Feature) :
    f.deferredNumbers.card ≤ f.properties.deferredKeys.length := by
  have same : (f.properties.entries.filterMap fun entry => entry.2.number?).length =
      f.properties.deferredKeys.length := by
    simp only [Properties.deferredKeys, List.length_map]
    induction f.properties.entries with
    | nil => rfl
    | cons entry rest ih =>
      obtain ⟨key, v | d⟩ := entry
      · simpa [Slot.number?, Slot.isDeferred] using ih
      · simpa [Slot.number?, Slot.isDeferred] using ih
  exact same ▸ List.toFinset_card_le _

/-- Orderly steps leave the same properties idle. -/
theorem idleNumbers_onward (f : Feature) {s t : Session} (step : s.Precedes t) :
    f.idleNumbers t = f.idleNumbers s := by
  simp only [idleNumbers, step.evaluating]

/-- An idle property that is being computed is idle no more. -/
theorem card_idleNumbers_enter (mem : d.id ∈ f.deferredNumbers) (idle : d.id ∉ s.evaluating) :
    (f.idleNumbers (s.enter d.id)).card < (f.idleNumbers s).card := by
  refine Finset.card_lt_card ?_
  have less : f.idleNumbers (s.enter d.id) ⊆ f.idleNumbers s := by
    intro id here
    simp only [idleNumbers, Session.enter, Finset.mem_filter, List.mem_cons, not_or] at here ⊢
    exact ⟨here.1, here.2.2⟩
  refine Finset.ssubset_iff_subset_ne.mpr ⟨less, fun same => ?_⟩
  have gone : d.id ∈ f.idleNumbers (s.enter d.id) :=
    same ▸ Finset.mem_filter.mpr ⟨mem, idle⟩
  simp [idleNumbers, Session.enter] at gone

/-- A property under computation reads as absent, however deep computations may nest. -/
theorem getWithin_running (slot : f.properties.slot? key = some (.deferred d))
    (running : d.id ∈ s.evaluating) (depth : Nat) :
    f.getWithin depth key s = (.ok none, s) := by
  cases depth with
  | zero => simp [getWithin, Properties.concrete?, slot, Slot.value?]
  | succ depth => simp [getWithin, slot, Deferred.evaluate_apply, running]

/-- What is not deferred reads as it is, however deep computations may nest. -/
theorem getWithin_plain (plain : ∀ d, f.properties.slot? key ≠ some (.deferred d)) (depth : Nat) :
    f.getWithin depth key s = (.ok (f.properties.concrete? key), s) := by
  cases depth with
  | zero => rfl
  | succ depth =>
    rcases slot : f.properties.slot? key with _ | ⟨v | d⟩
    · simp [getWithin, Properties.concrete?, slot]
    · simp [getWithin, Properties.concrete?, slot, Slot.value?]
    · exact absurd slot (plain d)

end Feature

namespace OngoingRead

/-- A read that begins. -/
def start (key : String) (s : Session) : OngoingRead := ⟨s, [], .property key⟩

/-- A read that has ended with an answer, in a session. -/
def ended (outcome : Answer × Session) : OngoingRead := ⟨outcome.2, [], .done outcome.1⟩

/-- One step of a read: an event is let known, a question is answered or makes its asker
wait, or a computation is done and the one that waits for it goes on. A read that is done
and for which nobody waits has no further step. -/
def next? (f : Feature) (p : OngoingRead) : Option OngoingRead :=
  match p.current with
  | .tell e next => some ⟨p.session.addEvent e, p.waiting, next⟩
  | .ask key next =>
    match f.properties.slot? key with
    | none => some ⟨p.session, p.waiting, next (.ok none)⟩
    | some (.concrete v) => some ⟨p.session, p.waiting, next (.ok (some v))⟩
    | some (.deferred d) =>
      if d.id ∈ p.session.evaluating then some ⟨p.session, p.waiting, next (.ok none)⟩
      else some ⟨p.session.enter d.id, ⟨d.id, next⟩ :: p.waiting, d.compute f.view⟩
  | .done a =>
    match p.waiting with
    | [] => none
    | w :: rest => some ⟨p.session.leave w.id, rest, w.next a⟩

/-- One stage of a read leads to another in steps. -/
def LeadsTo (f : Feature) : OngoingRead → OngoingRead → Prop :=
  Relation.ReflTransGen fun p q => p.next? f = some q

variable {f : Feature} {p q : OngoingRead} {s : Session} {waiting : List Waiting}

/-- What holds of a read that began in a session: the properties that are waited for are
different deferred properties of the feature, none was under computation before, and
together with those that were they are the ones under computation. -/
structure Sound (f : Feature) (s : Session) (p : OngoingRead) : Prop where
  /-- They are different. -/
  nodup : (p.waiting.map Waiting.id).Nodup
  /-- They are deferred properties of the feature that were not under computation. -/
  idle : ∀ w ∈ p.waiting, w.id ∈ f.idleNumbers s
  /-- They are under computation in addition to what was. -/
  evaluating : p.session.evaluating = p.waiting.map Waiting.id ++ s.evaluating

/-- A read that begins is sound. -/
theorem sound_start (f : Feature) (key : String) (s : Session) : Sound f s (start key s) :=
  ⟨.nil, by simp [start], rfl⟩

/-- Each step keeps a read sound. -/
theorem Sound.next (sound : Sound f s p) (step : p.next? f = some q) : Sound f s q := by
  obtain ⟨session, waiting, current⟩ := p
  obtain ⟨nodup, idle, evaluating⟩ := sound
  cases current with
  | tell e next =>
    obtain rfl := Option.some.inj step
    exact ⟨nodup, idle, (Orderly.addEvent e session).evaluating.trans evaluating⟩
  | ask key next =>
    rcases slot : f.properties.slot? key with _ | ⟨v | d⟩
    all_goals simp only [next?, slot] at step
    · obtain rfl := Option.some.inj step
      exact ⟨nodup, idle, evaluating⟩
    · obtain rfl := Option.some.inj step
      exact ⟨nodup, idle, evaluating⟩
    · split at step
      · obtain rfl := Option.some.inj step
        exact ⟨nodup, idle, evaluating⟩
      · rename_i fresh
        obtain rfl := Option.some.inj step
        rw [evaluating, List.mem_append, not_or] at fresh
        have mine : d.id ∈ f.idleNumbers s :=
          Finset.mem_filter.mpr ⟨Feature.mem_deferredNumbers slot, fresh.2⟩
        exact ⟨List.nodup_cons.mpr ⟨fresh.1, nodup⟩, List.forall_mem_cons.mpr ⟨mine, idle⟩,
          congrArg (d.id :: ·) evaluating⟩
  | done a =>
    cases waiting with
    | nil => cases step
    | cons w rest =>
      obtain rfl := Option.some.inj step
      refine ⟨(List.nodup_cons.mp nodup).2, (List.forall_mem_cons.mp idle).2, ?_⟩
      calc session.evaluating.erase w.id
          = (w.id :: (rest.map Waiting.id ++ s.evaluating)).erase w.id :=
            congrArg (List.erase · w.id) evaluating
        _ = rest.map Waiting.id ++ s.evaluating := List.erase_cons_head ..

/-- A read stays sound. -/
theorem Sound.of_leadsTo (sound : Sound f s p) (leads : LeadsTo f p q) : Sound f s q := by
  induction leads with
  | refl => exact sound
  | tail _ step ih => exact ih.next step

/-- The stack of a sound read is no longer than there are deferred properties that were
not under computation. -/
theorem Sound.length_le (sound : Sound f s p) : p.waiting.length ≤ (f.idleNumbers s).card := by
  have distinct := List.toFinset_card_of_nodup sound.nodup
  have among : (p.waiting.map Waiting.id).toFinset ⊆ f.idleNumbers s := by
    intro id mem
    obtain ⟨w, waits, rfl⟩ := List.mem_map.mp (List.mem_toFinset.mp mem)
    exact sound.idle w waits
  calc p.waiting.length
      = (p.waiting.map Waiting.id).length := (List.length_map _).symm
    _ = (p.waiting.map Waiting.id).toFinset.card := distinct.symm
    _ ≤ (f.idleNumbers s).card := Finset.card_le_card among

/-- A computation whose questions are answered as their steps lead is run as its steps
lead, as long as enough depth is left. -/
theorem leadsTo_run {depth : Nat}
    (answered : ∀ key next s waiting, (f.idleNumbers s).card ≤ depth →
      LeadsTo f ⟨s, waiting, .ask key next⟩
        ⟨(f.getWithin depth key s).2, waiting, next (f.getWithin depth key s).1⟩)
    (r : Reading Answer) (s : Session) (waiting : List Waiting)
    (enough : (f.idleNumbers s).card ≤ depth) :
    LeadsTo f ⟨s, waiting, r⟩
      ⟨(r.run (f.getWithin depth) s).2, waiting, .done (r.run (f.getWithin depth) s).1⟩ := by
  induction r generalizing s with
  | done a => exact .refl
  | ask key next ih =>
    have same := f.idleNumbers_onward (Orderly.discipline.getWithin f depth key s)
    exact (answered key next s waiting enough).trans (ih _ _ (same ▸ enough))
  | tell e next ih =>
    have same := f.idleNumbers_onward (.addEvent s e)
    exact .head rfl (ih _ (same ▸ enough))

/-- If as much depth is left as there are idle properties, reading with bounded depth is
what the steps of a question lead to, whoever waits. -/
theorem leadsTo_getWithin (depth : Nat) (key : String) (next : Answer → Reading Answer)
    (s : Session) (waiting : List Waiting) (enough : (f.idleNumbers s).card ≤ depth) :
    LeadsTo f ⟨s, waiting, .ask key next⟩
      ⟨(f.getWithin depth key s).2, waiting, next (f.getWithin depth key s).1⟩ := by
  induction depth using Nat.strong_induction_on generalizing key next s waiting with
  | _ depth ih =>
    rcases slot : f.properties.slot? key with _ | ⟨v | d⟩
    · have step : next? f ⟨s, waiting, .ask key next⟩ = some ⟨s, waiting, next (.ok none)⟩ := by
        simp only [next?, slot]
      rw [Feature.getWithin_plain (by simp [slot]), Properties.concrete?, slot]
      exact .single step
    · have step : next? f ⟨s, waiting, .ask key next⟩ =
          some ⟨s, waiting, next (.ok (some v))⟩ := by
        simp only [next?, slot]
      rw [Feature.getWithin_plain (by simp [slot]), Properties.concrete?, slot]
      exact .single step
    · by_cases running : d.id ∈ s.evaluating
      · have step : next? f ⟨s, waiting, .ask key next⟩ =
            some ⟨s, waiting, next (.ok none)⟩ := by
          simp only [next?, slot, if_pos running]
        rw [Feature.getWithin_running slot running]
        exact .single step
      · have fewer := Feature.card_idleNumbers_enter (Feature.mem_deferredNumbers slot) running
        obtain ⟨less, rfl⟩ : ∃ less, depth = less + 1 := ⟨depth - 1, by omega⟩
        have entered : next? f ⟨s, waiting, .ask key next⟩ =
            some ⟨s.enter d.id, ⟨d.id, next⟩ :: waiting, d.compute f.view⟩ := by
          simp only [next?, slot, if_neg running]
        have computed := leadsTo_run (ih less (Nat.lt_succ_self less)) (d.compute f.view)
          (s.enter d.id) (⟨d.id, next⟩ :: waiting) (by omega)
        simp only [Feature.getWithin, slot, Deferred.evaluate_apply, if_neg running]
        exact .head entered (computed.tail rfl)

/-- A read that has ended goes nowhere. -/
theorem eq_of_leadsTo_ended {outcome : Answer × Session} (leads : LeadsTo f (ended outcome) q) :
    q = ended outcome := by
  rcases leads.cases_head with same | ⟨other, step, -⟩
  · exact same.symm
  · cases step

/-- Where a read leads to an end, it leads there from every stage on the way. -/
theorem LeadsTo.onward {outcome : Answer × Session} (ends : LeadsTo f p (ended outcome))
    (leads : LeadsTo f p q) : LeadsTo f q (ended outcome) := by
  have unique : Relator.RightUnique fun p q : OngoingRead => p.next? f = some q :=
    fun _ _ _ first second => Option.some.inj (first.symm.trans second)
  rcases Relation.ReflTransGen.total_of_right_unique unique leads ends with onward | back
  · exact onward
  · rw [eq_of_leadsTo_ended back]
    exact .refl

end OngoingRead

namespace Feature

open OngoingRead

variable {f : Feature} {key : String} {d : Deferred}

/-- With as much depth as there are idle properties, more depth makes no difference. -/
theorem run_getWithin_congr (r : Reading Answer) (s : Session) {depth more : Nat}
    (enough : (f.idleNumbers s).card ≤ depth) (enoughToo : (f.idleNumbers s).card ≤ more) :
    r.run (f.getWithin more) s = r.run (f.getWithin depth) s := by
  have here : LeadsTo f ⟨s, [], r⟩ (ended (r.run (f.getWithin depth) s)) :=
    leadsTo_run (leadsTo_getWithin depth) r s [] enough
  have there : LeadsTo f ⟨s, [], r⟩ (ended (r.run (f.getWithin more) s)) :=
    leadsTo_run (leadsTo_getWithin more) r s [] enoughToo
  have same := eq_of_leadsTo_ended (here.onward there)
  simp only [ended, OngoingRead.mk.injEq, Reading.done.injEq, true_and] at same
  exact Prod.ext same.2.symm same.1.symm

/-- There are no more idle properties than depth to read with. -/
theorem card_idleNumbers_le (f : Feature) (s : Session) :
    (f.idleNumbers s).card ≤ f.properties.deferredKeys.length :=
  (Finset.card_filter_le _ _).trans f.card_deferredNumbers_le

/-- A concrete property reads as its value. -/
theorem get_concrete {v : Json} (slot : f.properties.slot? key = some (.concrete v))
    (s : Session) : f.get key s = (.ok (some v), s) := by
  have plain : ∀ d, f.properties.slot? key ≠ some (.deferred d) := by simp [slot]
  rw [get, getWithin_plain plain]
  simp [Properties.concrete?, slot, Slot.value?]

/-- Reading a deferred property computes it with reads of the same kind. -/
theorem get_deferred (slot : f.properties.slot? key = some (.deferred d)) (s : Session) :
    f.get key s = d.evaluate f.get f.view s := by
  have enough := f.card_idleNumbers_le s
  by_cases running : d.id ∈ s.evaluating
  · rw [get, getWithin_running slot running, Deferred.evaluate_apply, if_pos running]
  · have fewer := card_idleNumbers_enter (mem_deferredNumbers slot) running
    obtain ⟨less, depth⟩ : ∃ less, f.properties.deferredKeys.length = less + 1 :=
      ⟨f.properties.deferredKeys.length - 1, by omega⟩
    have same : (d.compute f.view).run f.get (s.enter d.id) =
        (d.compute f.view).run (f.getWithin less) (s.enter d.id) :=
      run_getWithin_congr _ _ (by omega) (by omega)
    rw [Deferred.evaluate_apply, if_neg running, same, get, depth]
    simp only [getWithin, slot, Deferred.evaluate_apply, if_neg running]

/-- Reading a property always ends, whatever computations the deferred properties hold,
whichever of them ask for one another or share a number, and wherever they panic: step by
step the read comes to its end, which is what `get` gives. From every stage on the way it
goes on to that end. At each stage no more computations wait than there are different
deferred properties, and whoever asks for one that is waited for is answered that it is
absent. Under computation are those that are waited for and those that were before the
read, so that afterwards they are the same as before. A deferred property is computed
with reads of the same kind, unless it is under computation. -/
theorem get_ends (f : Feature) (key : String) (s : Session) :
    LeadsTo f (start key s) (ended (f.get key s)) ∧
      (∀ p, LeadsTo f (start key s) p →
        LeadsTo f p (ended (f.get key s)) ∧
          p.waiting.length ≤ f.deferredNumbers.card ∧
          p.session.evaluating = p.waiting.map Waiting.id ++ s.evaluating ∧
          ∀ other d next, p.current = .ask other next →
            f.properties.slot? other = some (.deferred d) → d.id ∈ p.waiting.map Waiting.id →
              p.next? f = some ⟨p.session, p.waiting, next (.ok none)⟩) ∧
      (f.get key s).2.evaluating = s.evaluating ∧
      ∀ d, f.properties.slot? key = some (.deferred d) →
        f.get key s = if d.id ∈ s.evaluating then (.ok none, s) else d.evaluate f.get f.view s := by
  have ends : LeadsTo f (start key s) (ended (f.get key s)) :=
    leadsTo_getWithin _ key .done s [] (f.card_idleNumbers_le s)
  refine ⟨ends, fun p leads => ?_, (Orderly.discipline.get f key s).evaluating, fun d slot => ?_⟩
  · have sound := (sound_start f key s).of_leadsTo leads
    refine ⟨ends.onward leads, sound.length_le.trans (Finset.card_filter_le _ _),
      sound.evaluating, fun other d next asks slot waits => ?_⟩
    have running : d.id ∈ p.session.evaluating := by
      rw [sound.evaluating]
      exact List.mem_append_left _ waits
    simp only [next?, asks, slot, if_pos running]
  · split
    · rename_i running
      exact getWithin_running slot running _
    · exact get_deferred slot s

/-- Two properties that read each other, where one panics once it was answered, and a
third one that shares its computation with the other. -/
def roundabout : Feature :=
  let shared : Deferred := ⟨0, fun _ => .ask "_b" fun answer =>
    match answer with
    | .ok v => .done (.ok v)
    | .error _ => .done (.ok (some (.str "base")))⟩
  let panicking : Deferred := ⟨1, fun _ => .ask "_c" fun _ => .done (.error (.ofText "lost"))⟩
  ((Feature.mk "a" none .empty).set "_a" (.deferred shared)).set "_b" (.deferred panicking) |>.set
    "_c" (.deferred shared)

example : roundabout.deferredNumbers.card = 2 ∧ roundabout.properties.deferredKeys.length = 3 ∧
    (roundabout.get "_a" (.start 0)).1 = .ok (some (.str "base")) := ⟨rfl, rfl, rfl⟩

end Feature

end DerivedTags
