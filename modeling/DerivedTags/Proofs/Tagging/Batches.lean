import Mathlib.Data.List.Forall2
import DerivedTags.Proofs.Tagging.Runs
import DerivedTags.Proofs.Tagging.StrictRuns
import DerivedTags.Proofs.Tagging.TwinRuns

/-!
# Batches as independent features

What a run makes of a feature does not depend on the other features of its batch, on the
batches before it, or on what was compiled, called and counted by then. Each feature has
its share of a run, which is what a run over it alone gives, and a run over batches is
its shares put together.
-/

namespace DerivedTags

open DerivedTags.Session (SameSince Tally)
open DerivedTags.Snippet (Panic)

/-- What comes of one feature in a run. -/
structure Share where
  /-- The feature afterwards. -/
  after : Feature
  /-- Whether it changed. -/
  changed : Bool
  /-- What was called meanwhile. -/
  calls : List Call
  /-- How many failures were counted meanwhile. -/
  failures : Nat

namespace Share

/-- The failures of features taken together. -/
def failuresOf (share : Feature → Share) : List Feature → Nat
  | [] => 0
  | f :: rest => (share f).failures + failuresOf share rest

variable {share : Feature → Share}

/-- Failures of two lists of features add up. -/
theorem failuresOf_append (features others : List Feature) :
    failuresOf share (features ++ others) =
      failuresOf share features + failuresOf share others := by
  induction features with
  | nil => exact (Nat.zero_add _).symm
  | cons f rest ih => rw [List.cons_append, failuresOf, failuresOf, ih, Nat.add_assoc]

/-- Failures do not depend on the order of the features. -/
theorem failuresOf_perm {features others : List Feature} (perm : features.Perm others) :
    failuresOf share others = failuresOf share features := by
  induction perm with
  | nil => rfl
  | cons f _ ih => rw [failuresOf, failuresOf, ih]
  | swap f g rest => simp only [failuresOf, Nat.add_left_comm]
  | trans _ _ first second => rw [second, first]

end Share

namespace Pass

variable {p : Pass} {f : Feature} {s u : Session}

/-- Visiting a feature in a session gives a share, up to the numbers that are new. -/
def Gives (p : Pass) (f : Feature) (u : Session) (share : Share) : Prop :=
  ∃ g after, p.visit f u = ((.ok share.changed, g), after) ∧
    Tally share.calls share.failures u after ∧ share.after.Twin True g

/-- The visit of a feature whose derivations are standard ones, with the standard methods
and a clock that stands still, gives the same in every session in which the same
properties are under computation. -/
theorem visit_sameSince (standard : ∀ d ∈ p.derivations, d ∈ Standard.all)
    (methods : p.methods = .standard) {moment : Moment}
    (fixed : ∀ n, p.surroundings.clock n = moment) (known : f.Known s) (later : s.Precedes u) :
    ((Pairing.twins True s u).Beside (p.visit f s) (p.visit f u)) := by
  have start : (Pairing.twins True s u).Paired s f u f :=
    ⟨.refl s u, .start (fun _ d _ => Steady.of_ordered trivial d.compute) known
      (known.onward later) later.evaluating⟩
  have clock (n m : Nat) : p.surroundings.clock n = p.surroundings.clock m := by
    rw [fixed, fixed]
  have forces : p.evaluateStrict = true → (Pairing.twins True s u).Forces := fun _ =>
    Pairing.forces_twins trivial
  exact Pairing.visit (.refl methods) forces (fun _ _ tag _ _ => Pairing.computes_twins tag)
    (Pairing.deriveAll (fun _ => clock _ _) forces standard f.properties.keys false start)

/-- A pass over features gives their shares put together. -/
theorem visitAll_gives {share : Feature → Share} {features : List Feature}
    (gives : ∀ f ∈ features, ∀ v, u.Precedes v → p.Gives f v (share f)) :
    ∃ visited after,
      p.visitAll features u = ((.ok (features.any fun f => (share f).changed), visited), after) ∧
        Tally (features.flatMap fun f => (share f).calls) (Share.failuresOf share features) u
          after ∧
        List.Forall₂ (fun f g => (share f).after.Twin True g) features visited := by
  induction features generalizing u with
  | nil => exact ⟨[], u, rfl, .refl u, .nil⟩
  | cons f rest ih =>
    obtain ⟨g, mid, visited, tally, twin⟩ := gives f List.mem_cons_self u (.refl u)
    have step : u.Precedes mid := by
      have orderly := p.visit_orderly f u
      rwa [visited] at orderly
    obtain ⟨others, after, visitedAll, tallies, twins⟩ :=
      ih fun f mem v later => gives f (List.mem_cons_of_mem _ mem) v (step.trans later)
    refine ⟨g :: others, after, ?_, tally.trans tallies, .cons twin twins⟩
    simp only [visitAll, Session.bind_apply, visited, visitedAll]
    rfl

end Pass

/-- The compilations that running features of a layer will add. -/
def TagCompiler.due (c : TagCompiler) (layer : Layer) (features : List Feature) : Nat :=
  if features.isEmpty then 0 else (c.mustCompile layer).toNat

namespace Tagger

/-- The tagger with nothing compiled. -/
def fresh (t : Tagger) : Tagger := { t with compiler := .start t.compiler.functions }

variable (t : Tagger) (surroundings : Surroundings) (layer : Layer) (store : Option Store)
  (options : Options)

/-- The share of a feature in a run over nothing else. -/
def alone (s : Session) (f : Feature) : Share :=
  let ran := t.run [f] surroundings layer store options s
  { after := ran.1.features.headD f
    changed := ran.1.result.toOption.getD false
    calls := ran.2.calls.drop s.calls.length
    failures := ran.2.failures.failures - s.failures.failures }

/-- Run batches of a layer one after the other. What comes of each stands with the tagger
at the end and the features of each batch. -/
def runBatches (t : Tagger) : List (List Feature) →
    StateM Session (List (Except Panic Bool) × Tagger × List (List Feature))
  | [] => pure ([], t, [])
  | batch :: rest => do
    let outcome ← t.run batch surroundings layer store options
    let (results, last, visited) ← runBatches outcome.tagger rest
    pure (outcome.result :: results, last, outcome.features :: visited)

variable {t surroundings layer store options} {tags : Option LayerTags} {share : Feature → Share}
  {u : Session}

/-- A run over one calm feature returns, and its share is what a visit of the feature
gives in every later session. -/
theorem alone_gives {p : Pass} (pass : t.pass tags surroundings layer store options = p)
    (prepared : t.compiler.tagsFor layer = .ok tags)
    (standard : ∀ d ∈ p.derivations, d ∈ Standard.all) (methods : p.methods = .standard)
    {moment : Moment} (fixed : ∀ n, surroundings.clock n = moment) {s : Session} {f : Feature}
    (known : f.Known s) (calm : f.Calm) :
    (t.run [f] surroundings layer store options s).1.result =
        .ok (t.alone surroundings layer store options s f).changed ∧
      ∀ v, s.Precedes v → p.Gives f v (t.alone surroundings layer store options s f) := by
  obtain ⟨compiler, lines, -, applied⟩ := t.compiler.prepare_apply layer
  replace applied := applied s
  rw [prepared] at applied
  obtain ⟨changed, g, after, visited⟩ := p.visit_returns standard calm (s.addLines lines)
  have passed : p.visitAll [f] (s.addLines lines) = ((.ok changed, [g]), after) := by
    simp [Pass.visitAll, visited, Except.map]
  rw [← pass] at passed
  have ran := t.run_of_prepare surroundings layer store options s (List.cons_ne_nil f []) applied
    passed
  have share : t.alone surroundings layer store options s f =
      ⟨g, changed, after.calls.drop s.calls.length,
        after.failures.failures - s.failures.failures⟩ := by
    simp [alone, ran, Except.toOption]
  rw [ran, share]
  refine ⟨rfl, fun v later => ?_⟩
  have clock : ∀ n, p.surroundings.clock n = moment := by
    rw [← pass]
    exact fixed
  have step : (s.addLines lines).Precedes v := ⟨later.evaluating, later.numbers⟩
  have beside := p.visit_sameSince standard methods clock
    (known.onward (.addLines s lines)) step
  rcases there : p.visit f v with ⟨⟨result, h⟩, last⟩
  rw [visited, there] at beside
  obtain ⟨same, since, both⟩ := beside
  obtain rfl : result = .ok changed := same
  obtain ⟨calls, failures, tally, tallyThere⟩ := since
  have added : after.calls.drop s.calls.length = calls := by
    rw [tally.calls]
    exact List.drop_left
  have counted : after.failures.failures - s.failures.failures = failures := by
    rw [tally.failures]
    exact Nat.add_sub_cancel_left ..
  rw [added, counted]
  exact ⟨h, last, there, tallyThere, both.twin⟩

/-- A run over features gives their shares put together. It adds the compilations that are
due, whatever features come later. -/
theorem run_gives {p : Pass} (pass : t.pass tags surroundings layer store options = p)
    (prepared : t.compiler.tagsFor layer = .ok tags) {features : List Feature}
    (gives : ∀ f ∈ features, ∀ v, u.Precedes v → p.Gives f v (share f)) :
    ∃ compiler visited after,
      t.run features surroundings layer store options u =
          (⟨.ok (features.any fun f => (share f).changed), { t with compiler }, visited⟩, after) ∧
        Tally (features.flatMap fun f => (share f).calls) (Share.failuresOf share features) u
          after ∧
        List.Forall₂ (fun f g => (share f).after.Twin True g) features visited ∧
        compiler.tagsFor layer = .ok tags ∧
        ∀ rest, compiler.compilations + compiler.due layer rest =
          t.compiler.compilations + t.compiler.due layer (features ++ rest) := by
  by_cases empty : features = []
  · subst empty
    exact ⟨t.compiler, [], u, rfl, .refl u, .nil, prepared, fun rest => rfl⟩
  obtain ⟨compiler, lines, prepares, applied⟩ := t.compiler.prepare_apply layer
  replace applied := applied u
  rw [prepared] at applied
  have step : u.Precedes (u.addLines lines) := .addLines u lines
  obtain ⟨visited, after, passed, tally, twins⟩ :=
    p.visitAll_gives fun f mem v later => gives f mem v (step.trans later)
  rw [← pass] at passed
  refine ⟨compiler, visited, after,
    t.run_of_prepare surroundings layer store options u empty applied passed,
    ⟨tally.calls, tally.failures⟩, twins, prepares.tags tags prepared, fun rest => ?_⟩
  have some : (features ++ rest).isEmpty = false := by simp [empty]
  have none : compiler.due layer rest = 0 := by
    simp [TagCompiler.due, prepares.done tags prepared]
  rw [none, prepares.compilations, TagCompiler.due, some]
  rfl

/-- Runs over batches give the shares of their features put together, and add the
compilations that are due. -/
theorem runBatches_gives {p : Pass} (pass : t.pass tags surroundings layer store options = p)
    (prepared : t.compiler.tagsFor layer = .ok tags) {batches : List (List Feature)}
    (gives : ∀ f ∈ batches.flatten, ∀ v, u.Precedes v → p.Gives f v (share f)) :
    let ran := t.runBatches surroundings layer store options batches u
    ran.1.1 = (batches.map fun batch => .ok (batch.any fun f => (share f).changed)) ∧
      List.Forall₂ (List.Forall₂ fun f g => (share f).after.Twin True g) batches ran.1.2.2 ∧
      Tally (batches.flatten.flatMap fun f => (share f).calls)
        (Share.failuresOf share batches.flatten) u ran.2 ∧
      ran.1.2.1.compiler.compilations =
        t.compiler.compilations + t.compiler.due layer batches.flatten := by
  induction batches generalizing t u with
  | nil => exact ⟨rfl, .nil, .refl u, rfl⟩
  | cons batch rest ih =>
    rw [List.flatten_cons] at gives
    obtain ⟨compiler, visited, mid, ran, tally, twins, kept, due⟩ :=
      run_gives pass prepared fun f mem => gives f (List.mem_append_left _ mem)
    have step : u.Precedes mid := by
      have orderly := t.run_orderly batch surroundings layer store options u
      rwa [ran] at orderly
    have same : ({ t with compiler } : Tagger).pass tags surroundings layer store options = p :=
      pass
    obtain ⟨results, others, tallies, compilations⟩ := ih same kept fun f mem v later =>
      gives f (List.mem_append_right _ mem) v (step.trans later)
    simp only [runBatches, Session.bind_apply, Session.pure_apply, ran]
    refine ⟨by rw [results]; rfl, .cons twins others, ?_, ?_⟩
    · rw [List.flatten_cons, List.flatMap_append, Share.failuresOf_append]
      exact tally.trans tallies
    · rw [compilations, List.flatten_cons]
      exact due rest.flatten

/-- Batches of a layer are run as independent features. Let a tagger `r` have the same
derivations and the same tags of the layer as the tagger, be it the tagger itself or one
that has compiled nothing yet, and let each feature have the share that a run of `r` over
it alone gives. However features are split into batches, whatever order they come in, and
whatever was called, counted and compiled before: each ends as in its share, with the same
properties in the same order, a batch changed if one of its features did, calls and
failures are those of the shares put together, and the layer is compiled once if it has to
be. So the failures and the compilations are the same for every split and every order.

Standard derivations and methods, a clock that stands still, and deferred properties that
do not panic are assumed, and that the numbers in use were given out, which is so of
whatever runs lead to. -/
theorem runBatches_independent {t r : Tagger} {layer : Layer} {tags : Option LayerTags}
    (standard : ∀ d ∈ t.registry, d ∈ Standard.all) (methods : t.methods = .standard)
    (registry : r.registry = t.registry) (methodsAlone : r.methods = .standard)
    (prepared : t.compiler.tagsFor layer = .ok tags)
    (preparedAlone : r.compiler.tagsFor layer = .ok tags) {surroundings : Surroundings}
    {moment : Moment} (fixed : ∀ n, surroundings.clock n = moment) (store : Option Store)
    (options : Options) {s u : Session} (numbered : s.Numbered) (later : s.Precedes u)
    {batches : List (List Feature)} (issued : ∀ f ∈ batches.flatten, f.Issued s)
    (calm : ∀ f ∈ batches.flatten, f.Calm) :
    let share := r.alone surroundings layer store options s
    let ran := t.runBatches surroundings layer store options batches u
    (∀ f ∈ batches.flatten,
        (r.run [f] surroundings layer store options s).1.result = .ok (share f).changed) ∧
      ran.1.1 = (batches.map fun batch => .ok (batch.any fun f => (share f).changed)) ∧
      List.Forall₂ (List.Forall₂ fun f g => (share f).after.Twin True g) batches ran.1.2.2 ∧
      Tally (batches.flatten.flatMap fun f => (share f).calls)
        (Share.failuresOf share batches.flatten) u ran.2 ∧
      ran.1.2.1.compiler.compilations =
        t.compiler.compilations + t.compiler.due layer batches.flatten ∧
      ∀ others : List (List Feature), batches.flatten.Perm others.flatten →
        let again := t.runBatches surroundings layer store options others u
        again.2.failures.failures = ran.2.failures.failures ∧
          again.1.2.1.compiler.compilations = ran.1.2.1.compiler.compilations := by
  intro share ran
  let p := t.pass tags surroundings layer store options
  have pass : r.pass tags surroundings layer store options = p := by
    simp only [Tagger.pass, registry, methodsAlone, p, methods]
  have std : ∀ d ∈ p.derivations, d ∈ Standard.all := fun d mem =>
    standard d (List.mem_filter.mp mem).1
  have shares : ∀ f ∈ batches.flatten,
      (r.run [f] surroundings layer store options s).1.result = .ok (share f).changed ∧
        ∀ v, s.Precedes v → p.Gives f v (share f) := fun f mem =>
    alone_gives pass preparedAlone std methods fixed ⟨numbered, issued f mem⟩ (calm f mem)
  obtain ⟨results, features, tally, compilations⟩ :=
    runBatches_gives (t := t) (p := p) rfl prepared fun f mem v step =>
      (shares f mem).2 v (later.trans step)
  refine ⟨fun f mem => (shares f mem).1, results, features, tally, compilations,
    fun others perm => ?_⟩
  obtain ⟨-, -, tallyAgain, compilationsAgain⟩ :=
    runBatches_gives (t := t) (p := p) rfl prepared fun f mem v step =>
      (shares f (perm.mem_iff.mpr mem)).2 v (later.trans step)
  have due : t.compiler.due layer others.flatten = t.compiler.due layer batches.flatten := by
    simp only [TagCompiler.due, perm.isEmpty_eq]
  refine ⟨?_, ?_⟩
  · rw [tallyAgain.failures, tally.failures, Share.failuresOf_perm perm]
  · rw [compilationsAgain, compilations, due]

/-- A tagger that has compiled nothing yet has the same tags of a layer, if no others are
kept under its id. -/
theorem tagsFor_fresh {t : Tagger} {layer : Layer}
    (nothing : t.compiler.kept.lookup layer.id = none) :
    t.fresh.compiler.tagsFor layer = t.compiler.tagsFor layer := by
  simp [fresh, TagCompiler.tagsFor, TagCompiler.start, nothing]

/-- A layer with a tag that fails and a lazy one. -/
def failingLayer : Layer :=
  ⟨"shops", some (.obj []), [⟨"broken", some "nowhere", true⟩, ⟨"label", some "feat.id", false⟩]⟩

/-- A feature with a deferred name that asks for another property. -/
def namedFeature (id : String) : Feature where
  id := id
  geometry := none
  properties := { entries := [("name", .deferred ⟨0, fun _ => .ask "brand" .done⟩)] }

/-- The derivations of the layer and of the date. -/
def layerAndDate : Tagger := start [Standard.layer, Standard.date]

/-- The session after the number of this name was given out. -/
def oneGiven : Session := (newDeferred (.start 10)).2

/-- Runs over three features, nothing of which may stay deferred. -/
def runThree (batches : List (List Feature)) :
    (List (Except Panic Bool) × Tagger × List (List Feature)) × Session :=
  layerAndDate.runBatches .detached failingLayer none ⟨true, true, true⟩ batches oneGiven

/-- Two batches with an empty one between them give what three batches in another order
give: each feature has the share that a tagger which has compiled nothing yet gives it,
there is one failure of each, and the layer is compiled once. -/
theorem runBatches_independent_three :
    let batches := [[namedFeature "node/1", namedFeature "node/2"], [], [namedFeature "node/3"]]
    let others := [[namedFeature "node/3"], [namedFeature "node/2"], [namedFeature "node/1"]]
    let share := layerAndDate.fresh.alone .detached failingLayer none ⟨true, true, true⟩
      oneGiven
    (runThree batches).1.1 =
        (batches.map fun batch => .ok (batch.any fun f => (share f).changed)) ∧
      List.Forall₂ (List.Forall₂ fun f g => (share f).after.Twin True g) batches
        (runThree batches).1.2.2 ∧
      (runThree others).2.failures.failures = (runThree batches).2.failures.failures ∧
      (runThree batches).2.failures.failures = 3 ∧
      (runThree batches).1.2.1.compiler.compilations = 1 := by
  intro batches others share
  have standard : ∀ d ∈ layerAndDate.registry, d ∈ Standard.all := Standard.mem_all_of_places [1, 5]
  obtain ⟨tags, prepared⟩ : ∃ tags, layerAndDate.compiler.tagsFor failingLayer = .ok tags := by
    have compiles : (layerAndDate.compiler.tagsFor failingLayer).isOk = true := by decide +kernel
    cases found : layerAndDate.compiler.tagsFor failingLayer with
    | ok tags => exact ⟨tags, rfl⟩
    | error panic =>
      rw [found] at compiles
      cases compiles
  have preparedAlone : layerAndDate.fresh.compiler.tagsFor failingLayer = .ok tags := by
    rw [tagsFor_fresh rfl, prepared]
  have slots : ∀ f ∈ batches.flatten, ∀ key d, f.properties.slot? key = some (.deferred d) →
      d = ⟨0, fun _ => .ask "brand" .done⟩ := by
    intro f mem key d slot
    have named : ∃ id, f = namedFeature id := by
      simp only [batches, List.flatten_cons, List.flatten_nil, List.cons_append, List.nil_append,
        List.mem_cons, List.not_mem_nil, or_false] at mem
      rcases mem with rfl | rfl | rfl <;> exact ⟨_, rfl⟩
    obtain ⟨id, rfl⟩ := named
    by_cases name : key = "name"
    · simpa [namedFeature, Properties.slot?, name, eq_comm] using slot
    · have other : (key == "name") = false := by simpa using name
      simp [namedFeature, Properties.slot?, List.lookup_cons, other] at slot
  have issued : ∀ f ∈ batches.flatten, f.Issued oneGiven := by
    intro f mem key d slot
    rw [slots f mem key d slot]
    exact Nat.one_pos
  have calm : ∀ f ∈ batches.flatten, f.Calm := by
    intro f mem key d slot view
    rw [slots f mem key d slot]
    exact fun v => ⟨v, rfl⟩
  have perm : batches.flatten.Perm others.flatten := (List.reverse_perm _).symm
  have fixed : ∀ n, Surroundings.detached.clock n = Surroundings.detached.clock 0 := fun _ => rfl
  have numbered : oneGiven.Numbered := by
    intro id running
    cases running
  obtain ⟨-, results, features, -, -, orders⟩ := runBatches_independent standard rfl rfl rfl
    prepared preparedAlone fixed none ⟨true, true, true⟩ numbered (.refl oneGiven) issued calm
  have failures : (runThree batches).2.failures.failures = 3 := by decide +kernel
  have compilations : (runThree batches).1.2.1.compiler.compilations = 1 := by decide +kernel
  have again := (orders others perm).1
  unfold runThree at failures compilations ⊢
  exact ⟨results, features, again, failures, compilations⟩

end Tagger

end DerivedTags
