import DerivedTags.Proofs.Tagging.StandardSteps

/-!
# Settled features

A derivation has settled on a feature if running it again cannot change the
feature: its keys are all there, or it abstains, or it leaves computations that
are forced at once and give nothing. A run of the derivation settles it, and a
run of any standard derivation keeps what has settled.
-/

namespace DerivedTags

open DerivedTags.Standard

/-- Running the derivation on the feature again leaves the feature alone. -/
inductive Settled (strict : Bool) (d : Derivation) (f : Feature) : Prop where
  /-- All its keys are there. -/
  | complete (present : ∀ key ∈ d.keys, f.properties.contains key = true)
  /-- It abstains. -/
  | abstains (abstains : Abstains d f.geometry)
  /-- What it leaves is forced at once and gives nothing. -/
  | dropped (deferring : d.isLazy = true) (strict : strict = true)
      (bare : f.geometry = none) (absent : ∀ key ∈ d.keys, f.properties.contains key = false)

/-- A lazy derivation whose keys were all there before finds them all. -/
def Kept (before : List String) (d : Derivation) (f : Feature) : Prop :=
  d.isLazy = true → (∀ key ∈ d.keys, key ∈ before) →
    ∀ key ∈ d.keys, f.properties.contains key = true

/-- The derivation counts as a change at every visit of the feature: under options
that leave nothing deferred, without geometry, what it leaves goes at once. -/
def Derivation.recurs (strict : Bool) (d : Derivation) (f : Feature) : Bool :=
  strict && f.geometry.isNone && d.isLazy && !d.keys.all f.properties.contains

/-- What running a derivation does to a feature and a session. -/
structure Settles (strict : Bool) (d : Derivation) (f : Feature) (s : Session) (g : Feature)
    (after : Session) : Prop where
  /-- Only its keys are written. -/
  agree : Feature.AgreeOutside d.keys f g
  /-- Nobody outside is called. -/
  quiet : s.Quiet after
  /-- It has settled. -/
  settled : Settled strict d g
  /-- If all its keys were there, nothing is written. -/
  idle : (∀ key ∈ d.keys, f.properties.contains key = true) → g = f

namespace Settles

variable {strict : Bool} {d e : Derivation} {f g : Feature} {s after : Session}
  {before : List String}

/-- Under the keys of another standard derivation nothing is written. -/
theorem contains_eq (step : Settles strict d f s g after) (hd : d ∈ all) (he : e ∈ all)
    (different : e ≠ d) {key : String} (mem : key ∈ e.keys) :
    g.properties.contains key = f.properties.contains key :=
  step.agree.contains_eq fun mine => different (eq_of_mem_keys he hd mem mine)

/-- What has settled stays settled. -/
theorem preserves_settled (step : Settles strict d f s g after) (hd : d ∈ all) (he : e ∈ all)
    (settled : Settled strict e f) : Settled strict e g := by
  by_cases same : e = d
  · exact same ▸ step.settled
  · have others {key : String} (mem : key ∈ e.keys) := step.contains_eq hd he same mem
    cases settled with
    | complete present => exact .complete fun key mem => (others mem).trans (present key mem)
    | abstains abstains => exact .abstains (step.agree.geometry ▸ abstains)
    | dropped deferring strict bare absent =>
      exact .dropped deferring strict (step.agree.geometry.trans bare)
        fun key mem => (others mem).trans (absent key mem)

/-- Keys that a lazy derivation found it finds again. -/
theorem preserves_kept (step : Settles strict d f s g after) (hd : d ∈ all) (he : e ∈ all)
    (kept : Kept before e f) : Kept before e g := by
  intro deferring known key mem
  have present := kept deferring known
  by_cases same : e = d
  · subst same
    rw [step.idle present]
    exact present key mem
  · rw [step.contains_eq hd he same mem]
    exact present key mem

end Settles

namespace Pass

variable (p : Pass) {before : List String} {d : Derivation} {f : Feature} {s : Session}

/-- A derivation whose keys are all there is skipped. -/
theorem derive_of_complete (before : List String) (s : Session)
    (present : ∀ key ∈ d.keys, f.properties.contains key = true) :
    p.derive before d f s = ((.ok false, f), s) := by
  have skipped : d.keys.all f.properties.contains = true := List.all_eq_true.mpr present
  simp [derive, skipped]

/-- A lazy standard derivation that is not skipped writes its keys only. They are
there afterwards, unless they were forced without a geometry. -/
theorem derive_of_measures (std : d ∈ all) (deferring : d.isLazy = true)
    {measures : List (String × (Geo.Geometry → Float))} (keys : measures.map Prod.fst = d.keys)
    (proposes : ∀ layer surroundings moment f,
      d.propose layer surroundings moment f = measuring measures)
    (lacks : d.keys.all f.properties.contains = false) (late : d.keys.all before.contains = false)
    (free : f.geometry = none ∨ s.Numbered) :
    ∃ g after, p.derive before d f s = ((.ok true, g), after) ∧
      Feature.AgreeOutside d.keys f g ∧ s.Quiet after ∧
      ∀ key ∈ d.keys, g.properties.contains key = (!p.evaluateStrict || f.geometry.isSome) := by
  have nodup : d.keys.Nodup := (List.pairwise_flatMap.mp nodup_keys).1 d std
  obtain ⟨g, installedAt, applied, agree, quiet, installed⟩ :=
    applyAll_measures measures (keys ▸ nodup) f (tick s).2
  rw [keys] at agree installed
  obtain ⟨changed, after, ran, calm, -⟩ :=
    runContained_done (proposes p.layer p.surroundings (p.surroundings.clock s.ticks) f) applied
  have quietAfter : s.Quiet after := ((Session.Quiet.tick s).trans quiet).trans calm
  by_cases strict : p.evaluateStrict
  · have freeAfter : g.geometry = none ∨ ∀ id ∈ after.evaluating, id < (tick s).2.nextDeferred := by
      rw [agree.geometry, quietAfter.evaluating]
      exact free
    obtain ⟨h, forced, agreeForced, present⟩ := forceKeys_installed nodup installed freeAfter
    refine ⟨h, after, ?_, agree.trans agreeForced, quietAfter, fun key mem => ?_⟩
    · simp [derive, lacks, late, deferring, strict, ran, forced, Except.map]
    · rw [present key mem, agree.geometry, strict]
      rfl
  · refine ⟨g, after, ?_, agree, quietAfter, fun key mem => ?_⟩
    · simp [derive, lacks, late, deferring, strict, ran]
    · obtain ⟨id, measure, -, slot⟩ := installed key mem
      simp [Properties.contains, slot, strict]

/-- A derivation that abstains leaves the feature alone and counts as no change. -/
theorem derive_of_abstains (before : List String) (s : Session)
    (abstains : Abstains d f.geometry) :
    ∃ after, p.derive before d f s = ((.ok false, f), after) ∧ s.Quiet after := by
  by_cases present : d.keys.all f.properties.contains
  · exact ⟨s, by simp [derive, present], .refl s⟩
  · obtain ⟨verdict, unmoved, proposes⟩ := abstains.proposes
    obtain ⟨changed, after, ran, calm, change⟩ :=
      runContained_done (s := s)
        (proposes p.layer p.surroundings (p.surroundings.clock s.ticks) f rfl) rfl
    have unchanged : changed = false := Bool.eq_false_iff.mpr fun h => unmoved (change h)
    refine ⟨after, ?_, (Session.Quiet.tick s).trans calm⟩
    simp [derive, present, abstains.eager, ran, unchanged]

/-- A derivation that stores values writes its keys only, and they are there
afterwards. -/
theorem derive_of_stores (before : List String) (s : Session) (eager : d.isLazy = false)
    (lacks : d.keys.all f.properties.contains = false)
    (proposes : ∀ moment, ∃ values, values.map Prod.fst = d.keys ∧
      d.propose p.layer p.surroundings moment f = storing f values) :
    ∃ changed g after, p.derive before d f s = ((.ok changed, g), after) ∧
      Feature.AgreeOutside d.keys f g ∧ s.Quiet after ∧
      ∀ key ∈ d.keys, g.properties.contains key = true := by
  obtain ⟨values, keys, proposed⟩ := proposes (p.surroundings.clock s.ticks)
  obtain ⟨g, applied, agree, -, present⟩ :=
    applyAll_stores f values f (tick s).2 fun _ there => there
  obtain ⟨changed, after, ran, calm, -⟩ := runContained_done proposed applied
  rw [keys] at agree present
  refine ⟨changed, g, after, ?_, agree, (Session.Quiet.tick s).trans calm, present⟩
  simp [derive, lacks, eager, ran]

/-- Running a standard derivation settles it. -/
theorem derive_settles (std : d ∈ all) (kept : Kept before d f) (numbered : s.Numbered) :
    ∃ changed g after, p.derive before d f s = ((.ok changed, g), after) ∧
      Settles p.evaluateStrict d f s g after := by
  cases lacks : d.keys.all f.properties.contains with
  | true =>
    have present := List.all_eq_true.mp lacks
    exact ⟨false, f, s, p.derive_of_complete before s present,
      .refl _ f, .refl s, .complete present, fun _ => rfl⟩
  | false =>
    have idle (g : Feature) (present : ∀ key ∈ d.keys, f.properties.contains key = true) :
        g = f := by
      rw [List.all_eq_true.mpr present] at lacks
      cases lacks
    cases course std f.geometry with
    | stores eager proposes =>
      obtain ⟨changed, g, after, derived, agree, quiet, present⟩ :=
        p.derive_of_stores before s eager lacks fun moment => proposes _ _ moment f rfl
      exact ⟨changed, g, after, derived, agree, quiet, .complete present, idle g⟩
    | abstains abstains =>
      obtain ⟨after, derived, quiet⟩ := p.derive_of_abstains before s abstains
      exact ⟨false, f, after, derived, .refl _ f, quiet, .abstains abstains, fun _ => rfl⟩
    | measures deferring measures keys proposes =>
      have late : d.keys.all before.contains = false := by
        rw [Bool.eq_false_iff]
        intro known
        have before_mem : ∀ key ∈ d.keys, key ∈ before := fun key mem => by
          simpa using List.all_eq_true.mp known key mem
        rw [List.all_eq_true.mpr (kept deferring before_mem)] at lacks
        cases lacks
      obtain ⟨g, after, derived, agree, quiet, present⟩ :=
        p.derive_of_measures std deferring keys proposes lacks late (.inr numbered)
      refine ⟨true, g, after, derived, agree, quiet, ?_, idle g⟩
      cases found : !p.evaluateStrict || f.geometry.isSome with
      | true => exact .complete fun key mem => (present key mem).trans found
      | false =>
        simp only [Bool.or_eq_false_iff, Bool.not_eq_false', Option.isSome_eq_false_iff,
          Option.isNone_iff_eq_none] at found
        exact .dropped deferring found.1 (agree.geometry.trans found.2)
          fun key mem => by simp [present key mem, found]

/-- A standard derivation that has settled leaves the feature alone, and counts as
a change only if it does so at every visit. -/
theorem derive_of_settled (std : d ∈ all) (settled : Settled p.evaluateStrict d f)
    (s : Session) :
    ∃ after, p.derive f.properties.keys d f s = ((.ok (d.recurs p.evaluateStrict f), f), after) ∧
      s.Quiet after := by
  cases settled with
  | complete present =>
    have recurs : d.recurs p.evaluateStrict f = false := by
      simp [Derivation.recurs, List.all_eq_true.mpr present]
    exact ⟨s, recurs ▸ p.derive_of_complete _ s present, .refl s⟩
  | abstains abstains =>
    have recurs : d.recurs p.evaluateStrict f = false := by
      simp [Derivation.recurs, abstains.eager]
    exact recurs ▸ p.derive_of_abstains _ s abstains
  | dropped deferring strict bare absent =>
    cases lacks : d.keys.all f.properties.contains with
    | true =>
      have recurs : d.recurs p.evaluateStrict f = false := by simp [Derivation.recurs, lacks]
      have present := List.all_eq_true.mp lacks
      exact ⟨s, recurs ▸ p.derive_of_complete _ s present, .refl s⟩
    | false =>
      have recurs : d.recurs p.evaluateStrict f = true := by
        simp [Derivation.recurs, lacks, strict, bare, deferring]
      cases course std f.geometry with
      | stores eager => simp [eager] at deferring
      | abstains abstains => simp [abstains.eager] at deferring
      | measures _ measures keys proposes =>
        have late : d.keys.all f.properties.keys.contains = false := by
          rw [← lacks]
          refine List.all_congr rfl fun key => ?_
          rw [Bool.eq_iff_iff, List.contains_iff_mem, f.properties.contains_iff_mem_keys]
        obtain ⟨g, after, derived, agree, quiet, present⟩ :=
          p.derive_of_measures std (s := s) deferring keys proposes lacks late (.inl bare)
        have gone : ∀ key ∈ d.keys, g.properties.contains key = false := fun key mem => by
          simp [present key mem, strict, bare]
        obtain rfl := agree.eq_of_absent absent gone
        exact ⟨after, recurs ▸ derived, quiet⟩

end Pass

end DerivedTags
