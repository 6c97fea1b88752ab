import DerivedTags.Proofs.Tagging.OrderlyRuns
import DerivedTags.Proofs.Tagging.Runs
import DerivedTags.Proofs.Tagging.Settling
import DerivedTags.Proofs.Tagging.Visits

/-!
# Running standard derivations twice

A run of standard derivations settles all of them on every feature, so a second
run leaves every feature alone. It still counts as a change where a derivation
leaves computations that go at once; the store is told of these features only.
-/

namespace DerivedTags

open DerivedTags.Standard

namespace Pass

variable {p : Pass} {before : List String} {ds : List Derivation} {f : Feature} {s : Session}

/-- Running standard derivations settles them and keeps what has settled. -/
theorem deriveAll_settles (std : ∀ d ∈ ds, d ∈ all) (kept : ∀ e ∈ all, Kept before e f)
    (numbered : s.Numbered) (changed : Bool) :
    ∃ result g after, p.deriveAll before ds changed f s = ((.ok result, g), after) ∧
      (∀ e ∈ all, Settled p.evaluateStrict e f → Settled p.evaluateStrict e g) ∧
      ∀ d ∈ ds, Settled p.evaluateStrict d g := by
  induction ds generalizing changed f s with
  | nil => exact ⟨changed, f, s, rfl, fun _ _ settled => settled, by simp⟩
  | cons d rest ih =>
    have hd := std d List.mem_cons_self
    obtain ⟨more, g, mid, derived, step⟩ := p.derive_settles hd (kept d hd) numbered
    have keptNext : ∀ e ∈ all, Kept before e g := fun e he =>
      step.preserves_kept hd he (kept e he)
    obtain ⟨result, h, after, derivedAll, preserved, settled⟩ :=
      ih (fun e mem => std e (List.mem_cons_of_mem _ mem)) keptNext
        (step.quiet.numbered numbered) (changed || more)
    refine ⟨result, h, after, ?_, ?_, ?_⟩
    · simp [deriveAll, derived, derivedAll]
    · intro e he settledBefore
      exact preserved e he (step.preserves_settled hd he settledBefore)
    · intro e mem
      rcases List.mem_cons.mp mem with rfl | mem
      · exact preserved e hd step.settled
      · exact settled e mem

/-- Standard derivations that have settled leave the feature alone. -/
theorem deriveAll_of_settled (std : ∀ d ∈ ds, d ∈ all)
    (settled : ∀ d ∈ ds, Settled p.evaluateStrict d f) (changed : Bool) (s : Session) :
    ∃ after,
      p.deriveAll f.properties.keys ds changed f s =
          ((.ok (changed || ds.any fun d => d.recurs p.evaluateStrict f), f), after) ∧
        s.Quiet after := by
  induction ds generalizing changed s with
  | nil => exact ⟨s, by simp [deriveAll], .refl s⟩
  | cons d rest ih =>
    obtain ⟨mid, derived, quiet⟩ :=
      p.derive_of_settled (std d List.mem_cons_self) (settled d List.mem_cons_self) s
    obtain ⟨after, derivedAll, quietAll⟩ :=
      ih (fun e mem => std e (List.mem_cons_of_mem _ mem))
        (fun e mem => settled e (List.mem_cons_of_mem _ mem))
        (changed || d.recurs p.evaluateStrict f) mid
    refine ⟨after, ?_, quiet.trans quietAll⟩
    simp [deriveAll, derived, derivedAll, Bool.or_assoc]

/-- A visit settles the derivations of the pass. -/
theorem visit_settles (plain : p.tags = none) (std : ∀ d ∈ p.derivations, d ∈ all)
    (numbered : s.Numbered) (f : Feature) :
    ∃ changed g after, p.visit f s = ((.ok changed, g), after) ∧ after.Numbered ∧
      ∀ d ∈ p.derivations, Settled p.evaluateStrict d g := by
  have kept : ∀ e ∈ all, Kept f.properties.keys e f := fun e _ _ known key mem =>
    (f.properties.contains_iff_mem_keys key).mpr (known key mem)
  obtain ⟨changed, g, mid, derived, -, settled⟩ :=
    deriveAll_settles (p := p) std kept numbered false
  obtain ⟨after, visited, -⟩ := visit_of_deriveAll plain derived
  have numberedAfter := (p.visit_orderly f s).numbered numbered
  rw [visited] at numberedAfter
  exact ⟨changed, g, after, visited, numberedAfter, settled⟩

/-- Some derivation of the pass counts as a change of the feature every time. -/
def concerns (p : Pass) (f : Feature) : Bool :=
  p.derivations.any fun d => d.recurs p.evaluateStrict f

/-- Once the derivations have settled, a visit leaves the feature alone. -/
theorem visit_of_settled (plain : p.tags = none) (std : ∀ d ∈ p.derivations, d ∈ all)
    (settled : ∀ d ∈ p.derivations, Settled p.evaluateStrict d f) (s : Session) :
    ∃ after, p.visit f s = ((.ok (p.concerns f), f), after) ∧
      after.calls = s.calls ++
        (if p.concerns f && p.store.isSome then [.pinged f.id] else []) := by
  obtain ⟨mid, derived, quiet⟩ := deriveAll_of_settled std settled false s
  rw [Bool.false_or] at derived
  obtain ⟨after, visited, calls⟩ := visit_of_deriveAll plain derived
  exact ⟨after, visited, by rw [calls, quiet.calls]; rfl⟩

/-- A pass gives back as many features as it got. -/
theorem length_visitAll (p : Pass) (features : List Feature) (s : Session) :
    (p.visitAll features s).1.2.length = features.length := by
  induction features generalizing s with
  | nil => rfl
  | cons f rest ih =>
    rcases visited : p.visit f s with ⟨⟨result, g⟩, mid⟩
    cases result with
    | error panic => simp [visitAll, visited]
    | ok changed => simp [visitAll, visited, ih mid]

/-- A pass settles its derivations on every feature, and returns. -/
theorem visitAll_settles (plain : p.tags = none) (std : ∀ d ∈ p.derivations, d ∈ all)
    (numbered : s.Numbered) (features : List Feature) :
    ∃ changed visited after, p.visitAll features s = ((.ok changed, visited), after) ∧
      ∀ g ∈ visited, ∀ d ∈ p.derivations, Settled p.evaluateStrict d g := by
  induction features generalizing s with
  | nil => exact ⟨false, [], s, rfl, by simp⟩
  | cons f rest ih =>
    obtain ⟨changed, g, mid, visited, numberedMid, settled⟩ := visit_settles plain std numbered f
    obtain ⟨more, others, after, visitedAll, settledAll⟩ := ih numberedMid
    refine ⟨changed || more, g :: others, after, ?_, ?_⟩
    · simp [visitAll, visited, visitedAll, Except.map]
    · intro h mem
      rcases List.mem_cons.mp mem with rfl | mem
      · exact settled
      · exact settledAll h mem

/-- Once the derivations have settled on every feature, a pass leaves all of them
alone and tells the store of those concerned, in order. -/
theorem visitAll_of_settled (plain : p.tags = none) (std : ∀ d ∈ p.derivations, d ∈ all)
    {features : List Feature}
    (settled : ∀ f ∈ features, ∀ d ∈ p.derivations, Settled p.evaluateStrict d f)
    (s : Session) :
    ∃ after, p.visitAll features s = ((.ok (features.any p.concerns), features), after) ∧
      after.calls = s.calls ++
        (if p.store.isSome then (features.filter p.concerns).map (.pinged ·.id) else []) := by
  induction features generalizing s with
  | nil => exact ⟨s, rfl, by simp⟩
  | cons f rest ih =>
    obtain ⟨mid, visited, calls⟩ := visit_of_settled plain std (settled f List.mem_cons_self) s
    obtain ⟨after, visitedAll, callsAll⟩ :=
      ih (fun g mem => settled g (List.mem_cons_of_mem _ mem)) mid
    refine ⟨after, ?_, ?_⟩
    · simp [visitAll, visited, visitedAll, Except.map]
    · rw [callsAll, calls]
      cases p.store with
      | none => simp
      | some store => by_cases concerned : p.concerns f <;> simp [concerned]

end Pass

namespace Tagger

/-- The features that every further run counts as changed: without geometry,
under options that leave nothing deferred, a lazy derivation finds that not all
its keys are there. -/
def concerned (t : Tagger) (options : Options) (features : List Feature) : List Feature :=
  features.filter fun f =>
    (t.registry.allowed options).any fun d => d.recurs options.evaluateStrict f

/-- A feature is concerned if nothing may stay deferred, it has no geometry, and
it lacks a key of a lazy derivation that the options allow. -/
theorem mem_concerned (t : Tagger) (options : Options) (features : List Feature) (f : Feature) :
    f ∈ t.concerned options features ↔
      f ∈ features ∧ options.evaluateStrict = true ∧ f.geometry = none ∧
        ∃ d ∈ t.registry.allowed options, d.isLazy = true ∧
          ∃ key ∈ d.keys, f.properties.contains key = false := by
  simp only [concerned, Derivation.recurs, List.mem_filter, List.any_eq_true, Bool.and_eq_true,
    Bool.not_eq_true', Option.isNone_iff_eq_none, List.all_eq_false, Bool.not_eq_true]
  constructor
  · rintro ⟨mem, d, allowed, ⟨⟨strict, bare⟩, deferring⟩, lacks⟩
    exact ⟨mem, strict, bare, d, allowed, deferring, lacks⟩
  · rintro ⟨mem, strict, bare, d, allowed, deferring, lacks⟩
    exact ⟨mem, d, allowed, ⟨⟨strict, bare⟩, deferring⟩, lacks⟩

/-- A second run of standard derivations over a layer without calculated tags
leaves the batch exactly as the first run left it, whatever the clock reads then.
It counts as a change if features are concerned, and the store is told of exactly
these. The first run starts in a numbered session, as every one is that runs lead to
from the start (`run_numbered`). -/
theorem run_run {t : Tagger} (standard : ∀ d ∈ t.registry, d ∈ Standard.all) {layer : Layer}
    (plain : layer.calculatedTags = []) (features : List Feature)
    (surroundings later : Surroundings) (store : Option Store) (options : Options)
    {s : Session} (numbered : s.Numbered) (s' : Session) :
    let first := (t.run features surroundings layer store options s).1
    let second := first.tagger.run first.features later layer store options s'
    let concerned := t.concerned options first.features
    (∃ changed, first.result = .ok changed) ∧
      second.1.features = first.features ∧
      second.1.result = .ok (!concerned.isEmpty) ∧
      second.2.calls = s'.calls ++ (if store.isSome then concerned.map (.pinged ·.id) else []) := by
  cases features with
  | nil => simp [run_nil, Tagger.concerned]
  | cons f rest =>
    have std : ∀ d ∈ t.registry.allowed options, d ∈ Standard.all := fun d mem =>
      standard d (List.mem_filter.mp mem).1
    obtain ⟨changed, visited, mid, passed, settled⟩ :=
      Pass.visitAll_settles (p := t.pass none surroundings layer store options) rfl std numbered
        (f :: rest)
    have first := t.run_of_prepare surroundings layer store options s (List.cons_ne_nil f rest)
      (t.compiler.prepare_plain plain s) passed
    obtain ⟨after, again, calls⟩ :=
      Pass.visitAll_of_settled (p := t.pass none later layer store options) rfl std settled s'
    have occupied : visited ≠ [] := by
      have same := Pass.length_visitAll (t.pass none surroundings layer store options) (f :: rest) s
      rw [passed, List.length_cons] at same
      exact List.ne_nil_of_length_eq_add_one same
    have second := t.run_of_prepare later layer store options s' occupied
      (t.compiler.prepare_plain plain s') again
    have counted : visited.any (t.pass none later layer store options).concerns =
        !(t.concerned options visited).isEmpty := by
      rw [Bool.eq_iff_iff, Bool.not_eq_true', List.isEmpty_eq_false_iff]
      simp [Tagger.concerned, Pass.concerns, pass]
    simp only [first, second]
    exact ⟨⟨changed, rfl⟩, trivial, congrArg _ counted, calls⟩

/-- The surface of a feature without geometry goes at once, so a second run counts
the feature as changed again and changes nothing. -/
theorem run_run_surface :
    let t := Tagger.start [Standard.surface]
    let around : Surroundings := .detached
    let strict : Options := ⟨true, true, true⟩
    let first := (t.run [⟨"a", none, .empty⟩] around (.named "t") none strict (.start 10)).1
    let second :=
      first.tagger.run first.features around (.named "t") none strict (.start 10)
    second.1.features = first.features ∧ second.1.result = .ok true := by
  have standard : ∀ d ∈ (Tagger.start [Standard.surface]).registry, d ∈ Standard.all :=
    Standard.mem_all_of_places [3]
  have plain : (Layer.named "t").calculatedTags = [] := rfl
  obtain ⟨-, features, result, -⟩ := run_run standard plain [⟨"a", none, .empty⟩] .detached
    .detached none ⟨true, true, true⟩ (Session.numbered_start 10) (.start 10)
  exact ⟨features, result.trans rfl⟩

end Tagger

end DerivedTags
