import Mathlib.Data.List.Perm.Subperm
import DerivedTags.Proofs.Feature.Asking
import DerivedTags.Proofs.Tagging.SideBySide
import DerivedTags.Proofs.Tagging.SourceTags

/-!
# What derivations wish

Under options that let properties stay deferred, each standard derivation does to a
feature what it would do to it as it was when its visit began, whatever the other
derivations did meanwhile: what one wishes depends on its own keys, which no other one
writes. So derivations carry out their wishes one after the other.
-/

namespace DerivedTags

open DerivedTags.Standard

/-- What a derivation wishes to do to a feature at a moment: nothing if all its keys are
there, and else what it proposes. -/
def Derivation.wish (d : Derivation) (layer : Layer) (surroundings : Surroundings)
    (moment : Moment) (f : Feature) : Proposal :=
  if d.keys.all f.properties.contains then ⟨[], .ok (.ok false)⟩
  else (d.propose layer surroundings moment f).value fun _ => .ok none

/-- The edits that derivations wish for, in order. -/
def Registry.wishes (ds : Registry) (layer : Layer) (surroundings : Surroundings)
    (moment : Moment) (f : Feature) : List Edit :=
  ds.flatMap fun d => (d.wish layer surroundings moment f).edits

/-- Whether what derivations wish for counts as a change. -/
def Registry.wishesCount (ds : Registry) (layer : Layer) (surroundings : Surroundings)
    (moment : Moment) (f : Feature) : Bool :=
  ds.any fun d => (d.wish layer surroundings moment f).counts

namespace Standard

/-- A lazy standard derivation leaves computations, which counts as a change. -/
theorem counts_of_lazy {d : Derivation} (std : d ∈ all) (deferring : d.isLazy = true)
    {layer : Layer} {surroundings : Surroundings} {moment : Moment} {f : Feature}
    {proposal : Proposal} (proposed : d.propose layer surroundings moment f = .done proposal) :
    proposal.counts = true := by
  cases course std f.geometry with
  | stores eager _ =>
    rw [eager] at deferring
    cases deferring
  | abstains abstains =>
    rw [abstains.eager] at deferring
    cases deferring
  | measures _ measures _ proposes =>
    rw [proposes] at proposed
    obtain rfl := Reading.done.inj proposed
    rfl

end Standard

/-- Edits do not heed anything of a session but the next number. -/
theorem Edit.applyAll_of_next {edits : List Edit} {f : Feature} {s t : Session}
    (same : t.nextDeferred = s.nextDeferred) :
    applyAll edits f t =
      ((applyAll edits f s).1, { t with nextDeferred := (applyAll edits f s).2.nextDeferred }) := by
  induction edits generalizing f s t with
  | nil => simp [applyAll, ← same]
  | cons e rest ih =>
    cases e with
    | insert key v => exact ih same
    | remove key => exact ih same
    | defer key compute =>
      have step : (newDeferred t).2.nextDeferred = (newDeferred s).2.nextDeferred :=
        congrArg (· + 1) same
      have rests := ih (f := f.set key (.deferred ⟨s.nextDeferred, compute⟩)) step
      have applied : applyAll (.defer key compute :: rest) f t =
          applyAll rest (f.set key (.deferred ⟨t.nextDeferred, compute⟩)) (newDeferred t).2 := rfl
      rw [applied, same, rests]
      rfl

/-- Edits are carried out one list after the other. -/
theorem Edit.applyAll_append (edits others : List Edit) (f : Feature) (s : Session) :
    applyAll (edits ++ others) f s =
      applyAll others (applyAll edits f s).1 (applyAll edits f s).2 := by
  induction edits generalizing f s with
  | nil => rfl
  | cons e rest ih => exact ih (e.apply f s).1 (e.apply f s).2

/-- The edits that a standard derivation wishes for have different keys, all its own. -/
theorem Derivation.wish_keys {d : Derivation} (std : d ∈ all) (layer : Layer)
    (surroundings : Surroundings) (moment : Moment) (f : Feature) :
    ((d.wish layer surroundings moment f).edits.map Edit.key).Sublist d.keys := by
  unfold wish
  split
  · exact List.nil_sublist _
  · obtain ⟨proposal, proposed, -⟩ := propose_done std layer surroundings moment f
    simp only [proposed, Reading.value]
    exact propose_keys std proposed

namespace Pass

variable {p : Pass}

/-- A standard derivation carries out its wish, if its own keys are as they were when the
visit began. It reads the clock once if it runs. -/
theorem derive_wish (lenient : p.evaluateStrict = false) {d : Derivation} (std : d ∈ all)
    {f g : Feature} (geometry : g.geometry = f.geometry)
    (slots : ∀ key ∈ d.keys, g.properties.slot? key = f.properties.slot? key) {moment : Moment}
    {s : Session} (reads : d.includesDates = true → d.keys.all f.properties.contains = false →
      p.surroundings.clock s.ticks = moment) :
    let wish := d.wish p.layer p.surroundings moment f
    let ticks := if d.keys.all f.properties.contains then s.ticks else s.ticks + 1
    ∃ log, p.derive f.properties.keys d g s =
      ((.ok wish.counts, (Edit.applyAll wish.edits g s).1),
        { s with nextDeferred := (Edit.applyAll wish.edits g s).2.nextDeferred, log, ticks }) := by
  intro wish ticks
  have complete : d.keys.all g.properties.contains = d.keys.all f.properties.contains := by
    refine Bool.eq_iff_iff.mpr ?_
    simp only [List.all_eq_true]
    exact forall₂_congr fun key mem => by
      rw [Properties.contains, slots key mem, Properties.contains]
  have before : d.keys.all f.properties.keys.contains = d.keys.all f.properties.contains := by
    refine Bool.eq_iff_iff.mpr ?_
    simp only [List.all_eq_true, List.contains_iff_mem, Properties.contains_iff_mem_keys]
  unfold derive
  rw [complete, before]
  by_cases present : d.keys.all f.properties.contains
  · simp only [wish, ticks, Derivation.wish, present, if_true]
    exact ⟨s.log, rfl⟩
  · obtain ⟨proposal, proposed, -⟩ := propose_done std p.layer p.surroundings moment f
    have wished : wish = proposal := by
      simp only [wish, Derivation.wish, present, Bool.false_eq_true, if_false, proposed,
        Reading.value]
    have proposedThere : d.propose p.layer p.surroundings (p.surroundings.clock s.ticks) g =
        .done proposal := by
      rw [← proposed]
      refine propose_congr std p.layer (fun dated => ?_) geometry fun key mem => ?_
      · exact reads dated (by simpa using present)
      · rw [Properties.concrete?, slots key mem, Properties.concrete?]
    have ran := Derivation.runContained_apply proposedThere
    rw [Edit.applyAll_of_next (s := s) (t := (tick s).2) rfl] at ran
    simp only [present, ticks, Bool.false_eq_true, if_false, lenient, wished]
    cases deferring : d.isLazy with
    | false =>
      simp only [Bool.false_eq_true, if_false, Session.bind_apply, ran]
      exact ⟨_, rfl⟩
    | true =>
      simp only [if_true, Session.bind_apply, ran, counts_of_lazy std deferring proposed]
      exact ⟨_, rfl⟩

/-- The moments that derivations with dates read when they run one after the other on a
feature, the clock having been read so often before. One runs if it lacks a key. -/
def moments (p : Pass) (f : Feature) : List Derivation → Nat → List Moment
  | [], _ => []
  | d :: rest, ticks =>
    if d.keys.all f.properties.contains then p.moments f rest ticks
    else if d.includesDates then p.surroundings.clock ticks :: p.moments f rest (ticks + 1)
    else p.moments f rest (ticks + 1)

/-- What the derivations after the first one read is read. -/
theorem mem_moments_cons {f : Feature} {d : Derivation} {rest : List Derivation} {ticks : Nat}
    {m : Moment}
    (mem : m ∈ p.moments f rest
      (if d.keys.all f.properties.contains then ticks else ticks + 1)) :
    m ∈ p.moments f (d :: rest) ticks := by
  simp only [moments]
  split at mem
  · rename_i present
    rwa [if_pos present]
  · rename_i missing
    rw [if_neg missing]
    split
    · exact List.mem_cons_of_mem _ mem
    · exact mem

/-- Standard derivations with different keys carry out their wishes one after the other. -/
theorem deriveAll_wishes (lenient : p.evaluateStrict = false) {ds : List Derivation}
    (std : ∀ d ∈ ds, d ∈ all) (apart : (ds.flatMap Derivation.keys).Nodup) {f g : Feature}
    (geometry : g.geometry = f.geometry)
    (slots : ∀ key ∈ ds.flatMap Derivation.keys, g.properties.slot? key = f.properties.slot? key)
    {moment : Moment} {s : Session} (reads : ∀ m ∈ p.moments f ds s.ticks, m = moment)
    (changed : Bool) :
    let wishes := Registry.wishes ds p.layer p.surroundings moment f
    let counts := Registry.wishesCount ds p.layer p.surroundings moment f
    ∃ log ticks, p.deriveAll f.properties.keys ds changed g s =
      ((.ok (changed || counts), (Edit.applyAll wishes g s).1),
        { s with nextDeferred := (Edit.applyAll wishes g s).2.nextDeferred, log, ticks }) := by
  induction ds generalizing g s changed with
  | nil =>
    refine ⟨s.log, s.ticks, ?_⟩
    simp [deriveAll, Registry.wishes, Registry.wishesCount, Edit.applyAll]
  | cons d rest ih =>
    intro wishes counts
    rw [List.flatMap_cons] at apart slots
    obtain ⟨-, apartRest, disjoint⟩ := List.nodup_append.mp apart
    have mine := std d List.mem_cons_self
    let wish := d.wish p.layer p.surroundings moment f
    let g₁ := (Edit.applyAll wish.edits g s).1
    have own : Feature.AgreeOutside d.keys g g₁ := Edit.applyAll_agree
      (fun e mem => (d.wish_keys mine p.layer p.surroundings moment f).subset
        (List.mem_map_of_mem mem)) g s
    have slotsRest : ∀ key ∈ rest.flatMap Derivation.keys,
        g₁.properties.slot? key = f.properties.slot? key := fun key mem => by
      rw [own.slot?_eq fun here => disjoint key here key mem rfl]
      exact slots key (List.mem_append_right _ mem)
    have reading : d.includesDates = true → d.keys.all f.properties.contains = false →
        p.surroundings.clock s.ticks = moment := fun dated missing =>
      reads _ (by simp [moments, missing, dated])
    obtain ⟨log, derived⟩ := derive_wish lenient mine geometry
      (fun key mem => slots key (List.mem_append_left _ mem)) reading
    let mid : Session :=
      { s with
        nextDeferred := (Edit.applyAll wish.edits g s).2.nextDeferred
        log
        ticks := if d.keys.all f.properties.contains then s.ticks else s.ticks + 1 }
    have readsRest : ∀ m ∈ p.moments f rest mid.ticks, m = moment := fun m mem =>
      reads m (mem_moments_cons mem)
    obtain ⟨lastLog, lastTicks, derivedRest⟩ := ih (fun e mem => std e (List.mem_cons_of_mem _ mem))
      apartRest (own.geometry.trans geometry) slotsRest readsRest (changed || wish.counts)
    have onward : Edit.applyAll (Registry.wishes rest p.layer p.surroundings moment f) g₁ mid =
        ((Edit.applyAll wishes g s).1,
          { mid with nextDeferred := (Edit.applyAll wishes g s).2.nextDeferred }) := by
      have split : Edit.applyAll wishes g s =
          Edit.applyAll (Registry.wishes rest p.layer p.surroundings moment f) g₁
            (Edit.applyAll wish.edits g s).2 := Edit.applyAll_append wish.edits _ g s
      rw [split]
      exact Edit.applyAll_of_next rfl
    refine ⟨lastLog, lastTicks, ?_⟩
    simp only [deriveAll, Session.bind_apply, derived]
    rw [onward] at derivedRest
    refine derivedRest.trans ?_
    simp only [counts, Registry.wishesCount, List.any_cons, Bool.or_assoc, mid, wish]

end Pass

end DerivedTags
