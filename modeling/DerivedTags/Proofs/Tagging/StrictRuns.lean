import DerivedTags.Proofs.Tagging.Containment
import DerivedTags.Proofs.Tagging.Leftovers
import DerivedTags.Proofs.Tagging.Upkeep

/-!
# Strict runs after other runs

What standard derivations and calculated tags leave deferred never panics when it is
read. So after any runs over features that began with values only, a run under which
nothing may stay deferred returns. It leaves nothing deferred on its batch exactly if
it clears every feature; what an earlier run left deferred, it may pass over.
-/

namespace DerivedTags

open DerivedTags.Standard

/-- Calm features stay calm while only calm computations are left. -/
def Upkeep.calm : Upkeep where
  holds _ f := f.Calm
  allows compute := ∀ view, (compute view).Calm
  mono _ calm := calm
  put key _ calm := calm.set key fun _ same => nomatch same
  remove key calm := calm.erase key
  leave key _ quiet calm := calm.set key fun d same => by
    obtain rfl := Slot.deferred.inj same
    exact quiet
  later _ _ _ := Reading.Calm.of_onward _ fun tag => ⟨tag, rfl⟩

/-- Standard derivations leave calm computations only. -/
theorem Upkeep.admits_calm {d : Derivation} (std : d ∈ all) : Upkeep.calm.Admits d := by
  intro layer surroundings moment f s e mem
  obtain ⟨proposal, proposed, standard⟩ := propose_done std layer surroundings moment f
  rw [proposed] at mem
  cases standard e mem with
  | insert key value => exact trivial
  | defer key measure => exact fun view => ⟨_, rfl⟩

namespace Pass

variable {p : Pass} {f : Feature}

/-- A standard derivation does not break off the visit of a calm feature. -/
theorem derive_returns {d : Derivation} (std : d ∈ all) (before : List String) (calm : f.Calm)
    (s : Session) : ∃ changed g after, p.derive before d f s = ((.ok changed, g), after) := by
  have ran : (d.runContained p.layer p.surroundings f s).1.2.Calm :=
    Upkeep.calm.derivation (Upkeep.admits_calm std) p.layer p.surroundings calm
  unfold derive
  split
  · exact ⟨_, _, _, rfl⟩
  · split
    · split
      · exact ⟨_, _, _, rfl⟩
      · simp only [Session.bind_apply]
        split
        · obtain ⟨g, after, forced⟩ := Feature.Calm.forceKeys ran d.keys
            (d.runContained p.layer p.surroundings f s).2
          exact ⟨true, g, after, by simp [forced, Except.map]⟩
        · exact ⟨_, _, _, rfl⟩
    · exact ⟨_, _, _, rfl⟩

/-- Standard derivations do not break off the visit of a calm feature. -/
theorem deriveAll_returns {ds : List Derivation} (std : ∀ d ∈ ds, d ∈ all)
    (before : List String) (start : Bool) (calm : f.Calm) (s : Session) :
    ∃ changed g after, p.deriveAll before ds start f s = ((.ok changed, g), after) := by
  induction ds generalizing start f s with
  | nil => exact ⟨start, f, s, rfl⟩
  | cons d rest ih =>
    have hd := std d List.mem_cons_self
    obtain ⟨more, g, mid, derived⟩ := p.derive_returns hd before calm s
    have calmNext : g.Calm := by
      have kept : (p.derive before d f s).1.2.Calm :=
        Upkeep.calm.derive before (Upkeep.admits_calm hd) calm
      rwa [derived] at kept
    obtain ⟨changed, h, after, others⟩ :=
      ih (fun e mem => std e (List.mem_cons_of_mem _ mem)) (start || more) calmNext mid
    exact ⟨changed, h, after, by simp [deriveAll, derived, others]⟩

/-- The tags of the layer do not break off the visit of a calm feature. -/
theorem runTags_returns (start : Bool) (calm : f.Calm) (s : Session) :
    ∃ changed g after, p.runTags start f s = ((.ok changed, g), after) := by
  unfold runTags
  cases p.tags with
  | none => exact ⟨_, _, _, rfl⟩
  | some tags =>
    have ran : (tags.run p.methods p.surroundings f s).1.Calm :=
      Upkeep.calm.layerTags tags p.methods p.surroundings calm
    simp only [Session.bind_apply]
    split
    · obtain ⟨g, after, forced⟩ := Feature.Calm.forceKeys ran
        (tags.run p.methods p.surroundings f s).1.properties.deferredKeys
        (tags.run p.methods p.surroundings f s).2
      exact ⟨true, g, after, by simp [Feature.forceAll, forced, Except.map]⟩
    · exact ⟨_, _, _, rfl⟩

/-- The visit of a calm feature returns. -/
theorem visit_returns (std : ∀ d ∈ p.derivations, d ∈ all) (calm : f.Calm) (s : Session) :
    ∃ changed g after, p.visit f s = ((.ok changed, g), after) := by
  obtain ⟨some, g, mid, derived⟩ :=
    p.deriveAll_returns std f.properties.keys false calm s
  have calmNext : g.Calm := by
    have kept : (p.deriveAll f.properties.keys p.derivations false f s).1.2.Calm :=
      Upkeep.calm.deriveAll f.properties.keys (fun d mem => Upkeep.admits_calm (std d mem)) false
        calm
    rwa [derived] at kept
  obtain ⟨changed, h, after, tagged⟩ := p.runTags_returns some calmNext mid
  simp only [visit, Session.bind_apply, derived, tagged]
  cases changed with
  | false => exact ⟨false, h, after, rfl⟩
  | true => cases p.store <;> exact ⟨true, h, _, rfl⟩

/-- A pass over calm features returns. -/
theorem visitAll_returns (std : ∀ d ∈ p.derivations, d ∈ all) {features : List Feature}
    (calm : ∀ f ∈ features, f.Calm) (s : Session) :
    ∃ changed visited after, p.visitAll features s = ((.ok changed, visited), after) := by
  induction features generalizing s with
  | nil => exact ⟨false, [], s, rfl⟩
  | cons f rest ih =>
    obtain ⟨changed, g, mid, visited⟩ := p.visit_returns std (calm f List.mem_cons_self) s
    obtain ⟨more, others, after, visitedAll⟩ :=
      ih (fun g mem => calm g (List.mem_cons_of_mem _ mem)) mid
    exact ⟨changed || more, g :: others, after, by simp [visitAll, visited, visitedAll, Except.map]⟩

end Pass

/-- A layer has tags once they are prepared exactly if it has definitions. -/
theorem TagCompiler.tags_of_prepare {c compiler : TagCompiler} {layer : Layer}
    {tags : Option LayerTags} {s after : Session}
    (prepared : c.prepare layer s = ((.ok tags, compiler), after)) :
    tags ≠ none ↔ layer.calculatedTags ≠ [] := by
  obtain ⟨lines, preparation, -⟩ := preparation_of_prepare prepared
  cases preparation with
  | plain empty => simp [empty]
  | kept defines => simp [defines]
  | compiled defines => simp [defines]

namespace Tagger

variable {t : Tagger} {pool batch others : List Feature} {s : Session} {layer : Layer}
  {options : Options}

/-- What runs lead to, from features that hold values only: the tagger, all features
there are, and the session. A run takes a batch of the features in any order. -/
inductive Reached : Tagger → List Feature → Session → Prop where
  /-- No run so far: the derivations are standard ones and nothing is deferred. -/
  | start {t : Tagger} {pool : List Feature} {s : Session}
      (standard : ∀ d ∈ t.registry, d ∈ Standard.all) (computed : ∀ f ∈ pool, f.Computed) :
      Reached t pool s
  /-- One more run. -/
  | run {t : Tagger} {pool batch others : List Feature} {s : Session}
      (earlier : Reached t pool s) (split : pool.Perm (batch ++ others))
      (surroundings : Surroundings) (layer : Layer) (store : Option Store) (options : Options) :
      Reached (t.run batch surroundings layer store options s).1.tagger
        ((t.run batch surroundings layer store options s).1.features ++ others)
        (t.run batch surroundings layer store options s).2

/-- A run leaves the tagger its derivations. -/
theorem registry_run (t : Tagger) (features : List Feature) (surroundings : Surroundings)
    (layer : Layer) (store : Option Store) (options : Options) (s : Session) :
    (t.run features surroundings layer store options s).1.tagger.registry = t.registry := by
  unfold run
  split
  · rfl
  · simp only [Session.bind_apply]
    rcases t.compiler.prepare layer s with ⟨⟨panic | tags, compiler⟩, mid⟩ <;> rfl

/-- Whatever runs there were, the derivations are standard ones and every feature is
calm. -/
theorem Reached.calm (reached : Reached t pool s) :
    (∀ d ∈ t.registry, d ∈ Standard.all) ∧ ∀ f ∈ pool, f.Calm := by
  induction reached with
  | start standard computed => exact ⟨standard, fun f mem => (computed f mem).calm⟩
  | run earlier split surroundings layer store options ih =>
    obtain ⟨standard, calm⟩ := ih
    refine ⟨by rwa [registry_run], fun g mem => ?_⟩
    rcases List.mem_append.mp mem with ran | left
    · exact Upkeep.calm.run (fun d mem => Upkeep.admits_calm (standard d mem)) surroundings layer
        store options (fun f mem => calm f (split.mem_iff.mpr (List.mem_append_left _ mem))) g ran
    · exact calm g (split.mem_iff.mpr (List.mem_append_right _ left))

/-- After any runs, a run under which nothing may stay deferred returns, if the tags of
its layer compile. It leaves nothing deferred on its batch exactly if, for each feature,
the layer has calculated tags, or every property that an earlier run left deferred
belongs to an allowed derivation that lacks one of its keys and does not abstain. In
particular nothing stays deferred where nothing was before. -/
theorem strict_run_computed_iff (reached : Reached t pool s)
    (split : pool.Perm (batch ++ others)) (compiles : ¬t.compiler.BreaksOn layer)
    (strict : options.evaluateStrict = true) (surroundings : Surroundings)
    (store : Option Store) :
    let run := t.run batch surroundings layer store options s
    (∃ changed, run.1.result = .ok changed) ∧
      ((∀ g ∈ run.1.features, g.Computed) ↔
        ∀ f ∈ batch, layer.calculatedTags ≠ [] ∨ ∀ key, f.Plain key ∨
          ∃ d ∈ t.registry.allowed options, key ∈ d.keys ∧
            (∃ other ∈ d.keys, f.properties.contains other = false) ∧
            ¬Standard.Abstains d f.geometry) := by
  obtain ⟨standard, calm⟩ := reached.calm
  by_cases empty : batch = []
  · subst empty
    exact ⟨⟨false, rfl⟩, by simp [run_nil]⟩
  rcases prepared : t.compiler.prepare layer s with ⟨⟨panic | tags, compiler⟩, mid⟩
  · have broken := (t.compiler.prepare_eq_error_iff layer s panic).mp (by rw [prepared])
    exact absurd broken.2 compiles
  let p := t.pass tags surroundings layer store options
  have std : ∀ d ∈ p.derivations, d ∈ Standard.all := fun d mem =>
    standard d (List.mem_filter.mp mem).1
  have calmBatch : ∀ f ∈ batch, f.Calm := fun f mem =>
    calm f (split.mem_iff.mpr (List.mem_append_left _ mem))
  obtain ⟨changed, visited, after, passed⟩ := Pass.visitAll_returns (p := p) std calmBatch mid
  have cleared := Pass.visitAll_computed_iff (p := p) strict std (congrArg Prod.fst passed)
  have tagged : p.tags ≠ none ↔ layer.calculatedTags ≠ [] := TagCompiler.tags_of_prepare prepared
  rw [t.run_of_prepare surroundings layer store options s empty prepared passed]
  simp only [Pass.Clears, tagged] at cleared
  exact ⟨⟨changed, rfl⟩, cleared⟩

/-- A feature without properties, after a run that left its surface deferred. -/
def afterLenientRun : Outcome × Session :=
  (start [Standard.surface]).run [bareFeature] .detached (.named "parks") none .default (.start 10)

/-- One more run over the same feature, under which nothing may stay deferred. -/
def thenStrictRun (layer : Layer) : Outcome × Session :=
  afterLenientRun.1.tagger.run afterLenientRun.1.features .detached layer none
    ⟨true, true, true⟩ afterLenientRun.2

/-- A layer with a calculated tag. -/
def taggedLayer : Layer := ⟨"shops", some (.obj []), [⟨"name", some "feat.id", true⟩]⟩

/-- Where the layer has a calculated tag, the strict run computes what the run before it
left deferred. -/
theorem strict_run_computed_tagged :
    (Reached afterLenientRun.1.tagger (afterLenientRun.1.features ++ []) afterLenientRun.2 ∧
        ¬afterLenientRun.1.tagger.compiler.BreaksOn taggedLayer) ∧
      (∃ changed, (thenStrictRun taggedLayer).1.result = .ok changed) ∧
      ∀ g ∈ (thenStrictRun taggedLayer).1.features, g.Computed := by
  have standard : ∀ d ∈ (start [Standard.surface]).registry, d ∈ Standard.all :=
    Standard.mem_all_of_places [3]
  have computed : ∀ f ∈ [bareFeature], f.Computed := by
    intro f mem key d slot
    rw [List.mem_singleton.mp mem] at slot
    cases slot
  have reached : Reached afterLenientRun.1.tagger (afterLenientRun.1.features ++ [])
      afterLenientRun.2 :=
    .run (.start standard computed) (.refl _) .detached (.named "parks") none .default
  have compiles : ¬afterLenientRun.1.tagger.compiler.BreaksOn taggedLayer := by
    rintro ⟨-, d, mem, source, snippet, overflows⟩
    rw [List.mem_singleton.mp mem] at snippet
    obtain rfl := Option.some.inj snippet
    have broken := (Snippet.Compiled.ofText_eq_error_iff "feat.id" _).mpr ⟨rfl, overflows⟩
    have sound : (Snippet.Compiled.ofText "feat.id").isOk = true := by decide +kernel
    rw [broken] at sound
    cases sound
  have split : (afterLenientRun.1.features ++ []).Perm (afterLenientRun.1.features ++ []) := .refl _
  have strict : (⟨true, true, true⟩ : Options).evaluateStrict = true := rfl
  obtain ⟨returns, cleared⟩ :=
    strict_run_computed_iff reached split compiles strict .detached none
  have tagged : taggedLayer.calculatedTags ≠ [] := List.cons_ne_nil _ _
  rw [thenStrictRun]
  exact ⟨⟨reached, compiles⟩, returns, cleared.mpr fun f _ => .inl tagged⟩

/-- The surface that a run leaves deferred stays deferred in a strict run over a layer
without calculated tags: all keys of the derivation are there, so it is skipped. -/
theorem strict_run_leaves_deferred :
    bareFeature.properties.deferredKeys = [] ∧
      (thenStrictRun (.named "parks")).1.result = .ok false ∧
      (thenStrictRun (.named "parks")).1.features.map (·.properties.deferredKeys) =
        [["_surface", "_surface:ha"]] := by
  refine ⟨rfl, ?_, ?_⟩
  · decide +kernel
  · decide +kernel

end Tagger

end DerivedTags
