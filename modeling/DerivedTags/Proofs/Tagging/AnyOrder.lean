import Mathlib.Data.List.Forall2
import DerivedTags.Proofs.Tagging.EditsInAnyOrder
import DerivedTags.Proofs.Tagging.Runs
import DerivedTags.Proofs.Tagging.Wishes

/-!
# Derivations in any order

Standard derivations without repetitions may run in any order, under options that let
properties stay deferred: up to the order of new keys the features become the same, the
calculated tags of the layer give the same, and the same is called and counted. The clock
has to read the same to the derivation of dates wherever it stands.
-/

namespace DerivedTags

open DerivedTags.Standard
open DerivedTags.Session (SameSince)

namespace Standard

/-- Standard derivations without repetitions have different keys. -/
theorem nodup_keys_of_subset {ds : List Derivation} (std : ∀ d ∈ ds, d ∈ all)
    (nodup : ds.Nodup) : (ds.flatMap Derivation.keys).Nodup := by
  refine List.nodup_flatMap.mpr ⟨fun d mem => ?_, nodup.pairwise_of_forall_ne ?_⟩
  · exact (List.nodup_flatMap.mp nodup_keys).1 d (std d mem)
  · exact fun d memD e memE different key mine theirs =>
      different (eq_of_mem_keys (std d memD) (std e memE) mine theirs)

/-- The derivation with dates is the one of the date. -/
theorem eq_date {d : Derivation} (std : d ∈ all) (dated : d.includesDates = true) : d = date := by
  simp only [all, List.mem_cons, List.not_mem_nil, or_false] at std
  rcases std with rfl | rfl | rfl | rfl | rfl | rfl
  all_goals first | rfl | cases dated

end Standard

namespace Registry

variable {ds es : List Derivation} (layer : Layer) (surroundings : Surroundings)
  (moment : Moment) (f : Feature)

/-- The edits that derivations wish for have different keys if the derivations do. -/
theorem wishes_keys (std : ∀ d ∈ ds, d ∈ all) :
    ((wishes ds layer surroundings moment f).map Edit.key).Sublist
      (ds.flatMap Derivation.keys) := by
  induction ds with
  | nil => exact .refl _
  | cons d rest ih =>
    simp only [wishes, List.flatMap_cons, List.map_append] at ih ⊢
    exact (d.wish_keys (std d List.mem_cons_self) layer surroundings moment f).append
      (ih fun e mem => std e (List.mem_cons_of_mem _ mem))

/-- Standard derivations wish for values and for computations from the geometry. -/
theorem proposes_wishes (std : ∀ d ∈ ds, d ∈ all) :
    ∀ e ∈ wishes ds layer surroundings moment f, Proposes e := by
  intro e mem
  obtain ⟨d, own, wished⟩ := List.mem_flatMap.mp mem
  unfold Derivation.wish at wished
  split at wished
  · cases wished
  · obtain ⟨proposal, proposed, proposes⟩ := propose_done (std d own) layer surroundings moment f
    rw [proposed] at wished
    exact proposes e wished

/-- In any order, whatever can be consulted, derivations wish for the same at a moment. -/
theorem wishes_perm (std : ∀ d ∈ ds, d ∈ all) (perm : ds.Perm es) (surroundings' : Surroundings) :
    (wishes ds layer surroundings moment f).Perm (wishes es layer surroundings' moment f) ∧
      wishesCount es layer surroundings' moment f = wishesCount ds layer surroundings moment f := by
  have same : ∀ d ∈ ds,
      d.wish layer surroundings' moment f = d.wish layer surroundings moment f := by
    intro d mem
    unfold Derivation.wish
    rw [propose_congr (std d mem) layer (fun _ => rfl) rfl fun _ _ => rfl]
  constructor
  · refine List.Perm.trans (.of_eq ?_) (perm.flatMap_right _)
    exact List.flatMap_congr fun d mem => by rw [same d mem]
  · refine Bool.eq_iff_iff.mpr ?_
    simp only [wishesCount, List.any_eq_true, ← perm.mem_iff]
    exact exists_congr fun d => and_congr_right fun mem => by rw [same d mem]

end Registry

/-- The computations of a feature do not heed the order of its properties. -/
def Feature.Steady (f : Feature) : Prop :=
  ∀ key d, f.properties.slot? key = some (.deferred d) → DerivedTags.Steady False d.compute

namespace Pass

variable {p q : Pass} {f : Feature} {s t : Session}

/-- Without derivations with dates no moment is read. -/
theorem moments_undated {ds : List Derivation} (undated : ∀ d ∈ ds, d.includesDates = false)
    (ticks : Nat) : p.moments f ds ticks = [] := by
  induction ds generalizing ticks with
  | nil => rfl
  | cons d rest ih =>
    have others := ih fun e mem => undated e (List.mem_cons_of_mem _ mem)
    simp [moments, undated d List.mem_cons_self, others]

/-- Standard derivations without repetitions read at most one moment. -/
theorem exists_moment {ds : List Derivation} (std : ∀ d ∈ ds, d ∈ all) (nodup : ds.Nodup)
    (ticks : Nat) : ∃ moment, ∀ m ∈ p.moments f ds ticks, m = moment := by
  induction ds generalizing ticks with
  | nil => exact ⟨p.surroundings.clock 0, fun m mem => nomatch mem⟩
  | cons d rest ih =>
    rw [List.nodup_cons] at nodup
    have others := ih (fun e mem => std e (List.mem_cons_of_mem _ mem)) nodup.2
    simp only [moments]
    split
    · exact others ticks
    split
    · rename_i dated
      have undated : ∀ e ∈ rest, e.includesDates = false := by
        intro e mem
        refine Bool.eq_false_iff.mpr fun also => nodup.1 ?_
        have same : d = e := (eq_date (std d List.mem_cons_self) dated).trans
          (eq_date (std e (List.mem_cons_of_mem _ mem)) also).symm
        rwa [same]
      rw [moments_undated undated]
      exact ⟨_, fun m mem => List.mem_singleton.mp mem⟩
    · exact others (ticks + 1)

/-- Two passes under which properties may stay deferred, with the same standard
derivations in two orders. -/
structure Reordered (p q : Pass) : Prop extends SameTags p q where
  /-- The derivations are standard ones. -/
  derivations : ∀ d ∈ p.derivations, d ∈ all
  /-- They come without repetitions. -/
  nodup : p.derivations.Nodup
  /-- The second pass has the same ones. -/
  perm : p.derivations.Perm q.derivations
  /-- Both are for the same layer. -/
  layer : q.layer = p.layer
  /-- Properties may stay deferred. -/
  lenient : p.evaluateStrict = false

namespace Reordered

variable (reordered : p.Reordered q)

include reordered

/-- The derivations of both passes make twins of a feature, if they read the same moment. -/
theorem deriveAll (steady : f.Steady) (here : f.Known s) (there : f.Known t)
    (same : t.evaluating = s.evaluating)
    (reads : q.moments f q.derivations t.ticks = p.moments f p.derivations s.ticks) :
    (Pairing.twins False s t).Beside
      (p.deriveAll f.properties.keys p.derivations false f s)
      (q.deriveAll f.properties.keys q.derivations false f t) := by
  have std := reordered.derivations
  have stdThere : ∀ d ∈ q.derivations, d ∈ all := fun d mem =>
    std d (reordered.perm.mem_iff.mpr mem)
  have lenientThere : q.evaluateStrict = false := reordered.strict.trans reordered.lenient
  have apart := nodup_keys_of_subset std reordered.nodup
  have apartThere := nodup_keys_of_subset stdThere (reordered.perm.nodup_iff.mp reordered.nodup)
  obtain ⟨moment, read⟩ := p.exists_moment (f := f) std reordered.nodup s.ticks
  have readThere : ∀ m ∈ q.moments f q.derivations t.ticks, m = moment := by rwa [reads]
  obtain ⟨log, ticks, ran⟩ :=
    deriveAll_wishes reordered.lenient std apart rfl (fun _ _ => rfl) read false
  obtain ⟨logThere, ticksThere, ranThere⟩ :=
    deriveAll_wishes lenientThere stdThere apartThere rfl (fun _ _ => rfl) readThere false
  obtain ⟨perm, counts⟩ :=
    Registry.wishes_perm p.layer p.surroundings moment f std reordered.perm q.surroundings
  rw [ran, ranThere, reordered.layer, counts]
  let edits := Registry.wishes p.derivations p.layer p.surroundings moment f
  let others := Registry.wishes q.derivations p.layer q.surroundings moment f
  have wrought : Edit.Wrought edits f s.nextDeferred (Edit.applyAll edits f s).1 :=
    Edit.applyAll_wrought (apart.sublist (Registry.wishes_keys _ _ _ _ std)) here.issued
  have wroughtThere : Edit.Wrought edits f t.nextDeferred (Edit.applyAll others f t).1 :=
    (Edit.applyAll_wrought (apartThere.sublist (Registry.wishes_keys _ _ _ _ stdThere))
      there.issued).perm perm.symm
  have proposes := Registry.proposes_wishes p.layer p.surroundings moment f std
  refine ⟨rfl, (SameSince.refl s t).congr rfl rfl rfl rfl, ?_, ?_, ?_, ?_⟩
  · exact wrought.twin wroughtThere proposes steady fun key d slot =>
      ⟨here.issued key d slot, there.issued key d slot⟩
  · rintro i j ⟨key, d, e, slot, slotThere, rfl, rfl⟩
    rcases wrought.numbers wroughtThere proposes slot slotThere with ⟨-, rfl⟩ | ⟨new, newThere⟩
    · exact iff_of_eq (congrArg (e.id ∈ ·) same.symm)
    · exact iff_of_false (fun running => Nat.not_lt_of_le new (here.numbered _ running))
        (fun running => Nat.not_lt_of_le newThere (there.numbered _ running))
  · exact Edit.applyAll_known here rfl rfl
  · exact Edit.applyAll_known there rfl rfl

/-- Both passes make twins of a feature, if their derivations read the same moment. -/
theorem visit (steady : f.Steady) (here : f.Known s) (there : f.Known t)
    (same : t.evaluating = s.evaluating)
    (reads : q.moments f q.derivations t.ticks = p.moments f p.derivations s.ticks) :
    (Pairing.twins False s t).Beside (p.visit f s) (q.visit f t) := by
  have forces : p.evaluateStrict = true → (Pairing.twins False s t).Forces := by
    rw [reordered.lenient]
    exact fun no => nomatch no
  exact Pairing.visit reordered.toSameTags forces (fun _ _ tag _ _ => Pairing.computes_twins tag)
    (reordered.deriveAll steady here there same reads)

end Reordered

/-- The moments that derivations with dates read in a pass, feature by feature. -/
def readings (p : Pass) : List Feature → Session → List (List Moment)
  | [], _ => []
  | f :: rest, s => p.moments f p.derivations s.ticks :: p.readings rest (p.visit f s).2

/-- A clock that stands still is read so often as derivations with dates run. -/
theorem moments_of_still {moment : Moment} (still : ∀ n, p.surroundings.clock n = moment)
    (ds : List Derivation) (ticks : Nat) :
    p.moments f ds ticks =
      .replicate (ds.countP fun d => d.includesDates && !d.keys.all f.properties.contains)
        moment := by
  induction ds generalizing ticks with
  | nil => rfl
  | cons d rest ih =>
    simp only [moments, still, ih, List.countP_cons]
    cases d.keys.all f.properties.contains <;> cases d.includesDates <;> rfl

/-- Clocks that stand still at the same moment read the same in any order of the
derivations. -/
theorem readings_of_still (perm : p.derivations.Perm q.derivations) {moment : Moment}
    (still : ∀ n, p.surroundings.clock n = moment)
    (stillThere : ∀ n, q.surroundings.clock n = moment) (features : List Feature) (s t : Session) :
    q.readings features t = p.readings features s := by
  induction features generalizing s t with
  | nil => rfl
  | cons f rest ih =>
    simp only [readings, moments_of_still still, moments_of_still stillThere, perm.countP_eq]
    exact congrArg _ (ih _ _)

/-- Both passes make twins of the features, give the same result, and call and count the
same, if the clock reads the same to both. -/
theorem Reordered.visitAll (reordered : p.Reordered q) {features : List Feature}
    (steady : ∀ f ∈ features, f.Steady) (here : ∀ f ∈ features, f.Known s)
    (there : ∀ f ∈ features, f.Known t) (same : t.evaluating = s.evaluating)
    (reads : q.readings features t = p.readings features s) :
    (q.visitAll features t).1.1 = (p.visitAll features s).1.1 ∧
      List.Forall₂ (Feature.Twin False) (p.visitAll features s).1.2 (q.visitAll features t).1.2 ∧
      SameSince s t (p.visitAll features s).2 (q.visitAll features t).2 := by
  induction features generalizing s t with
  | nil => exact ⟨rfl, .nil, .refl s t⟩
  | cons f rest ih =>
    obtain ⟨read, reads⟩ := List.cons.inj reads
    have visit := reordered.visit (steady f List.mem_cons_self) (here f List.mem_cons_self)
      (there f List.mem_cons_self) same read
    have step := p.visit_orderly f s
    have stepThere := q.visit_orderly f t
    rcases visited : p.visit f s with ⟨⟨panic | changed, g⟩, mid⟩
    all_goals rcases visitedThere : q.visit f t with ⟨⟨result, k⟩, midThere⟩
    all_goals rw [visited, visitedThere] at visit reads
    all_goals rw [visited] at step
    all_goals rw [visitedThere] at stepThere
    all_goals obtain ⟨rfl, since, both⟩ := visit
    all_goals simp only [Pass.visitAll, Session.bind_apply, visited, visitedThere]
    · have others : List.Forall₂ (Feature.Twin False) rest rest :=
        List.forall₂_same.mpr fun f mem => .refl (steady f (List.mem_cons_of_mem _ mem))
      exact ⟨rfl, .cons both.twin others, since⟩
    · have onward := ih (fun f mem => steady f (List.mem_cons_of_mem _ mem))
        (fun f mem => (here f (List.mem_cons_of_mem _ mem)).onward step)
        (fun f mem => (there f (List.mem_cons_of_mem _ mem)).onward stepThere)
        (by rw [stepThere.evaluating, same, step.evaluating]) reads
      obtain ⟨result, twins, sinceRest⟩ := onward
      simp only [Session.pure_apply, result]
      exact ⟨trivial, .cons both.twin twins, since.trans sinceRest⟩

end Pass

/-- Computations that runs with the standard methods leave: those from the geometry and
those of calculated tags. -/
inductive LeftByRuns : (View → Reading Answer) → Prop where
  /-- A standard derivation left it. -/
  | derivation (measure : Geo.Geometry → Float) : LeftByRuns (fromGeometry measure)
  /-- A calculated tag left it. -/
  | tag (t : CalculatedTag) (lookup : Option Lookup) (centre : Option Geo.Position)
      (box : Option Geo.Box) : LeftByRuns (t.later (.spatial lookup centre box))

/-- What runs leave does not heed the order of properties. -/
theorem LeftByRuns.steady {compute : View → Reading Answer} (left : LeftByRuns compute) :
    Steady False compute := by
  cases left with
  | derivation measure => exact fromGeometry_steady measure
  | tag t lookup centre box => exact t.later_steady lookup centre box

/-- The surroundings with another clock. -/
def Surroundings.withClock (surroundings : Surroundings) (clock : Nat → Moment) : Surroundings :=
  { surroundings with clock }

namespace Tagger

/-- The moments that derivations with dates read in a run, feature by feature. -/
def readings (t : Tagger) (features : List Feature) (surroundings : Surroundings) (layer : Layer)
    (store : Option Store) (options : Options) (s : Session) : List (List Moment) :=
  match t.compiler.prepare layer s with
  | ((.ok tags, _), mid) => (t.pass tags surroundings layer store options).readings features mid
  | ((.error _, _), _) => []

/-- Clocks that stand still at the same moment read the same in two runs with the
derivations in two orders. -/
theorem readings_of_still {t : Tagger} {registry : Registry} (perm : t.registry.Perm registry)
    {surroundings : Surroundings} {clock : Nat → Moment} {moment : Moment}
    (still : ∀ n, surroundings.clock n = moment) (stillThere : ∀ n, clock n = moment)
    (features : List Feature) (layer : Layer) (store : Option Store) (options : Options)
    (s : Session) :
    (t.withRegistry registry).readings features (surroundings.withClock clock) layer store
        options s =
      t.readings features surroundings layer store options s := by
  simp only [readings, compiler_withRegistry]
  rcases t.compiler.prepare layer s with ⟨⟨panic | tags, compiler⟩, mid⟩
  · rfl
  · exact Pass.readings_of_still (perm.filter _) still stillThere features mid mid

/-- Standard derivations commute. Under options that let properties stay deferred, a run
with the standard derivations in one order and a run with them in another one, both over
the same features and with a clock that reads the same, come to the same: the same result,
calls and failures, and features that hold the same values and the same computations
under the same keys, whatever the calculated tags of the layer made of them. Only the
order of the keys may differ, and the numbers of the computations. The computations that
the features held before were left by runs, and the numbers in use were given out. -/
theorem run_perm {t : Tagger} (standard : ∀ d ∈ t.registry, d ∈ Standard.all)
    (nodup : t.registry.Nodup) (methods : t.methods = .standard) {registry : Registry}
    (perm : t.registry.Perm registry) {layer : Layer} {options : Options}
    (lenient : options.evaluateStrict = false) {features : List Feature}
    (left : ∀ f ∈ features, ∀ key d, f.properties.slot? key = some (.deferred d) →
      LeftByRuns d.compute)
    {s : Session} (numbered : s.Numbered) (issued : ∀ f ∈ features, f.Issued s)
    (surroundings : Surroundings) (clock : Nat → Moment) (store : Option Store)
    (reads : (t.withRegistry registry).readings features (surroundings.withClock clock) layer
      store options s = t.readings features surroundings layer store options s) :
    let here := t.run features surroundings layer store options s
    let there := (t.withRegistry registry).run features (surroundings.withClock clock) layer store
      options s
    there.1.result = here.1.result ∧
      List.Forall₂ (Feature.Twin False) here.1.features there.1.features ∧
      there.2.calls = here.2.calls ∧ there.2.failures.failures = here.2.failures.failures ∧
      there.1.tagger.compiler = here.1.tagger.compiler := by
  have steady : ∀ f ∈ features, f.Steady := fun f mem key d slot => (left f mem key d slot).steady
  have unchanged : List.Forall₂ (Feature.Twin False) features features :=
    List.forall₂_same.mpr fun f mem => .refl (steady f mem)
  by_cases empty : features = []
  · subst empty
    exact ⟨rfl, .nil, rfl, rfl, rfl⟩
  obtain ⟨compiler, lines, -, prepared⟩ := t.compiler.prepare_apply layer
  replace prepared := prepared s
  cases tags : t.compiler.tagsFor layer with
  | error panic =>
    rw [tags] at prepared
    rw [t.run_of_refused surroundings layer store options s empty prepared,
      run_of_refused (t.withRegistry registry) _ layer store options s empty prepared]
    exact ⟨rfl, unchanged, rfl, rfl, rfl⟩
  | ok prepares =>
    rw [tags] at prepared
    simp only [readings, compiler_withRegistry, prepared] at reads
    let p := t.pass prepares surroundings layer store options
    let q := (t.withRegistry registry).pass prepares (surroundings.withClock clock) layer store
      options
    have reordered : p.Reordered q :=
      { standard := methods, methods := rfl, tags := rfl, lookup := rfl, store := rfl, strict := rfl
        derivations := fun d mem => standard d (List.mem_filter.mp mem).1
        nodup := nodup.filter _
        perm := perm.filter _
        layer := rfl
        lenient := lenient }
    have known : ∀ f ∈ features, f.Known (s.addLines lines) := fun f mem =>
      ⟨numbered, issued f mem⟩
    obtain ⟨result, twins, calls, failures, here, there⟩ :=
      reordered.visitAll steady known known rfl reads
    rw [t.run_of_prepare surroundings layer store options s empty prepared rfl,
      run_of_prepare (t.withRegistry registry) _ layer store options s empty prepared rfl]
    exact ⟨result, twins, there.calls.trans here.calls.symm,
      there.failures.trans here.failures.symm, rfl⟩

/-- A layer with a tag that lists all properties. -/
def listingLayer : Layer := ⟨"shops", some (.obj []), [⟨"all", some "feat.properties", true⟩]⟩

/-- Two features, one of them with a date. -/
def twoFeatures : List Feature :=
  [⟨"node/1", none, .empty⟩, ⟨"node/2", none, .ofMembers [("_now:date", .str "1999-12-31")]⟩]

/-- A clock that moves on by a second at each reading. -/
def movingSurroundings : Surroundings := ⟨.empty, none, fun n => ⟨2024, 1, 1, 0, 0, n⟩⟩

/-- The same clock a second ahead. -/
def ahead (n : Nat) : Moment := ⟨2024, 1, 1, 0, 0, n + 1⟩

/-- A tagger whose derivation of dates is the last one. -/
def dateLast : Tagger := start [Standard.layer, Standard.date]

/-- The derivation of dates first. -/
def dateFirst : Registry := [Standard.date, Standard.layer]

/-- The derivation of dates runs after that of the layer, or before it with a clock that is
ahead by as much. The tag lists the same properties although they came in another order. -/
theorem run_perm_listing :
    let here := dateLast.run twoFeatures movingSurroundings listingLayer none .default (.start 10)
    let there := (dateLast.withRegistry dateFirst).run twoFeatures
      (movingSurroundings.withClock ahead) listingLayer none .default (.start 10)
    (dateLast.registry.Perm dateFirst ∧
        (dateLast.withRegistry dateFirst).readings twoFeatures
            (movingSurroundings.withClock ahead) listingLayer none .default (.start 10) =
          dateLast.readings twoFeatures movingSurroundings listingLayer none .default
            (.start 10)) ∧
      (there.1.result = here.1.result ∧
        List.Forall₂ (Feature.Twin False) here.1.features there.1.features ∧
        there.2.calls = here.2.calls) ∧
      here.1.features.map (·.properties.keys) =
        [["_layer", "_now:date", "_now:datetime", "all"],
          ["_now:date", "_layer", "_now:datetime", "all"]] ∧
      there.1.features.map (·.properties.keys) =
        [["_now:date", "_now:datetime", "_layer", "all"],
          ["_now:date", "_now:datetime", "_layer", "all"]] := by
  have standard : ∀ d ∈ dateLast.registry, d ∈ Standard.all := Standard.mem_all_of_places [1, 5]
  have nodup : dateLast.registry.Nodup := by
    refine List.nodup_cons.mpr ⟨fun mem => ?_, List.nodup_singleton _⟩
    have same := congrArg Derivation.includesDates (List.mem_singleton.mp mem)
    cases same
  have perm : dateLast.registry.Perm dateFirst := .swap _ _ _
  have computed : ∀ f ∈ twoFeatures, ∀ key d, f.properties.slot? key ≠ some (.deferred d) := by
    intro f mem key d slot
    have deferred := Properties.mem_deferredKeys slot
    have none : f.properties.deferredKeys = [] := by
      rcases List.mem_cons.mp mem with rfl | mem
      · rfl
      · rw [List.mem_singleton.mp mem]
        rfl
    rw [none] at deferred
    cases deferred
  have reads : (dateLast.withRegistry dateFirst).readings twoFeatures
      (movingSurroundings.withClock ahead) listingLayer none .default (.start 10) =
        dateLast.readings twoFeatures movingSurroundings listingLayer none .default
          (.start 10) := by
    decide +kernel
  obtain ⟨result, twins, calls, -, -⟩ := run_perm standard nodup rfl perm
    (rfl : Options.default.evaluateStrict = false)
    (fun f mem key d slot => absurd slot (computed f mem key d)) (Session.numbered_start 10)
    (fun f mem key d slot => absurd slot (computed f mem key d)) movingSurroundings ahead none reads
  exact ⟨⟨perm, reads⟩, ⟨result, twins, calls⟩, by decide +kernel, by decide +kernel⟩

end Tagger

end DerivedTags
