import Mathlib.Data.List.Forall2
import DerivedTags.Proofs.Tagging.Leftovers
import DerivedTags.Proofs.Tagging.Runs
import DerivedTags.Proofs.Tagging.TagSteps

/-!
# Tags that a run leaves alone

A run writes the keys of the derivations that its options allow and those of the
calculated tags that it runs. Everything else about a feature stays as it was: its id,
its geometry, its place in the batch, and the properties under other keys with their
order. Only where nothing may stay deferred, and the layer has calculated tags, are
deferred properties under other keys computed too.
-/

namespace DerivedTags

open DerivedTags.Standard
open DerivedTags.Snippet (FunctionTable)

namespace Edit

/-- The key that an edit writes. -/
def key : Edit → String
  | .insert key _ => key
  | .defer key _ => key
  | .remove key => key

/-- An edit writes its key only. -/
theorem apply_agree {keys : List String} {e : Edit} (own : e.key ∈ keys) (f : Feature)
    (s : Session) : Feature.AgreeOutside keys f (e.apply f s).1 := by
  cases e with
  | insert key value => exact .set own f _
  | defer key compute => exact .set own f _
  | remove key => exact .erase own f

/-- Edits write their keys only. -/
theorem applyAll_agree {keys : List String} {edits : List Edit}
    (own : ∀ e ∈ edits, e.key ∈ keys) (f : Feature) (s : Session) :
    Feature.AgreeOutside keys f (applyAll edits f s).1 := by
  induction edits generalizing f s with
  | nil => exact .refl keys f
  | cons e rest ih =>
    have first := apply_agree (own e List.mem_cons_self) f s
    exact first.trans (ih (fun e mem => own e (List.mem_cons_of_mem _ mem)) _ _)

end Edit

/-- A derivation proposes edits under its own keys only. -/
def Derivation.WritesOwnKeys (d : Derivation) : Prop :=
  ∀ layer surroundings moment f s,
    ∀ e ∈ (Feature.run f (d.propose layer surroundings moment f) s).1.edits, e.key ∈ d.keys

namespace Standard

/-- Storing values writes some of their keys, in order. -/
theorem keys_storing (f : Feature) (values : List (String × Json)) :
    ((values.flatMap fun (key, value) => store f key value).map Edit.key).Sublist
      (values.map Prod.fst) := by
  induction values with
  | nil => exact .refl _
  | cons entry rest ih =>
    obtain ⟨key, value⟩ := entry
    rw [List.flatMap_cons, List.map_append, List.map_cons]
    simp only [store]
    split
    · exact ih.cons key
    · exact ih.cons_cons key

/-- The edits that a standard derivation proposes have different keys, all its own. -/
theorem propose_keys {d : Derivation} (std : d ∈ all) {layer : Layer}
    {surroundings : Surroundings} {moment : Moment} {f : Feature} {proposal : Proposal}
    (proposed : d.propose layer surroundings moment f = .done proposal) :
    (proposal.edits.map Edit.key).Sublist d.keys := by
  cases course std f.geometry with
  | stores _ proposes =>
    obtain ⟨values, keys, stored⟩ := proposes layer surroundings moment f rfl
    rw [stored] at proposed
    obtain rfl := Reading.done.inj proposed
    rw [← keys]
    exact keys_storing f values
  | abstains abstains =>
    obtain ⟨verdict, -, proposes⟩ := abstains.proposes
    rw [proposes layer surroundings moment f rfl] at proposed
    obtain rfl := Reading.done.inj proposed
    exact List.nil_sublist _
  | measures _ measures keys proposes =>
    rw [proposes layer surroundings moment f] at proposed
    obtain rfl := Reading.done.inj proposed
    rw [← keys, List.map_map]
    exact .refl _

/-- Standard derivations write their own keys only. -/
theorem writesOwnKeys {d : Derivation} (std : d ∈ all) : d.WritesOwnKeys := by
  intro layer surroundings moment f s e mem
  obtain ⟨proposal, proposed, -⟩ := propose_done std layer surroundings moment f
  rw [proposed] at mem
  exact (propose_keys std proposed).subset (List.mem_map_of_mem mem)

end Standard

/-- A derivation that writes its own keys only does so whatever becomes of it. -/
theorem Derivation.runContained_agree {d : Derivation} (own : d.WritesOwnKeys) (layer : Layer)
    (surroundings : Surroundings) (f : Feature) (s : Session) :
    Feature.AgreeOutside d.keys f (d.runContained layer surroundings f s).1.2 := by
  let proposing := f.run (d.propose layer surroundings (surroundings.clock s.ticks) f) (tick s).2
  have edited := Edit.applyAll_agree
    (own layer surroundings (surroundings.clock s.ticks) f (tick s).2) f proposing.2
  have ran : d.run layer surroundings f s =
      ((proposing.1.verdict, (Edit.applyAll proposing.1.edits f proposing.2).1),
        (Edit.applyAll proposing.1.edits f proposing.2).2) := rfl
  simp only [runContained, Session.bind_apply, ran]
  rcases proposing.1.verdict with panic | e | changed
  · exact edited
  · exact edited
  · exact edited

/-- Features that agree outside some keys have the same deferred properties under
others. -/
theorem Feature.AgreeOutside.deferredKeys_subset {keys : List String} {f g : Feature}
    (agree : AgreeOutside keys f g) :
    g.properties.deferredKeys ⊆ keys ++ f.properties.deferredKeys := by
  intro key mem
  by_cases known : key ∈ keys
  · exact List.mem_append_left _ known
  obtain ⟨entry, found, rfl⟩ := List.mem_map.mp mem
  obtain ⟨there, deferred⟩ := List.mem_filter.mp found
  have other : entry ∈ g.properties.without keys :=
    List.mem_filter.mpr ⟨there, decide_eq_true known⟩
  rw [agree.others] at other
  exact List.mem_append_right _
    (List.mem_map_of_mem (List.mem_filter.mpr ⟨(List.mem_filter.mp other).1, deferred⟩))

namespace Pass

variable (p : Pass)

/-- A derivation that writes its own keys only does so in a pass, also where what it
leaves is forced. -/
theorem derive_agree {d : Derivation} (own : d.WritesOwnKeys) (before : List String)
    (f : Feature) (s : Session) :
    Feature.AgreeOutside d.keys f (p.derive before d f s).1.2 := by
  have ran := Derivation.runContained_agree own p.layer p.surroundings f s
  unfold derive
  split
  · exact .refl _ f
  · split
    · split
      · exact .refl _ f
      · simp only [Session.bind_apply]
        split
        · exact ran.trans (Feature.agree_forceKeys d.keys _ _)
        · exact ran
    · exact ran

/-- Derivations that write their own keys only do so one after the other. -/
theorem deriveAll_agree {ds : List Derivation} (own : ∀ d ∈ ds, d.WritesOwnKeys)
    (before : List String) (changed : Bool) (f : Feature) (s : Session) :
    Feature.AgreeOutside (ds.flatMap Derivation.keys) f
      (p.deriveAll before ds changed f s).1.2 := by
  induction ds generalizing changed f s with
  | nil => exact .refl _ f
  | cons d rest ih =>
    have first := (p.derive_agree (own d List.mem_cons_self) before f s).mono
      (List.subset_append_left d.keys (rest.flatMap Derivation.keys))
    rcases derived : p.derive before d f s with ⟨⟨panic | more, g⟩, mid⟩
    all_goals rw [derived] at first
    all_goals simp only [deriveAll, Session.bind_apply, derived, List.flatMap_cons]
    · exact first
    · have others := ih (fun e mem => own e (List.mem_cons_of_mem _ mem)) (changed || more) g mid
      exact first.trans (others.mono (List.subset_append_right _ _))

end Pass

/-- Running the tags of a layer writes their keys only, whatever becomes of the
methods. -/
theorem LayerTags.run_agree (l : LayerTags) (source : MethodSource)
    (surroundings : Surroundings) (f : Feature) (s : Session) :
    Feature.AgreeOutside l.keys f (l.run source surroundings f s).1 := by
  simp only [run, Session.bind_apply]
  rcases f.run (source.attach surroundings f.view) (noteCall (.attached f.id) s).2 with
    ⟨panic | e | methods, after⟩
  · exact .refl _ f
  · exact .refl _ f
  · exact runAll_agree methods l.tags f after

namespace Pass

variable (p : Pass)

/-- The keys that the derivations and the calculated tags of a pass write. -/
def keys : List String :=
  p.derivations.flatMap Derivation.keys ++ (p.tags.map LayerTags.keys).getD []

/-- The keys under which the visit of a feature may change anything. Where nothing may
stay deferred these include the keys that are deferred when the visit begins. -/
def reach (f : Feature) : List String :=
  if p.evaluateStrict then p.keys ++ f.properties.deferredKeys else p.keys

/-- All keys of a pass are within reach. -/
theorem keys_subset_reach (f : Feature) : p.keys ⊆ p.reach f := by
  unfold reach
  split
  · exact List.subset_append_left _ _
  · exact List.Subset.refl _

/-- Running the tags after the derivations stays within reach. -/
theorem runTags_agree {f g : Feature} (agree : Feature.AgreeOutside p.keys f g) (changed : Bool)
    (s : Session) : Feature.AgreeOutside (p.reach f) f (p.runTags changed g s).1.2 := by
  have derived := agree.mono (p.keys_subset_reach f)
  unfold runTags
  cases tags : p.tags with
  | none => exact derived
  | some l =>
    have own : l.keys ⊆ p.keys := by
      simp only [keys, tags, Option.map_some, Option.getD_some]
      exact List.subset_append_right _ _
    have ran := agree.trans ((l.run_agree p.methods p.surroundings g s).mono own)
    simp only [Session.bind_apply]
    split
    · rename_i strict
      have deferred : (l.run p.methods p.surroundings g s).1.properties.deferredKeys ⊆
          p.reach f := by
        simp only [reach, strict, if_true]
        exact ran.deferredKeys_subset
      exact (ran.mono (p.keys_subset_reach f)).trans
        ((Feature.agree_forceKeys _ _ _).mono deferred)
    · exact ran.mono (p.keys_subset_reach f)

/-- A visit stays within reach, also where a panic ends it. -/
theorem visit_agree (own : ∀ d ∈ p.derivations, d.WritesOwnKeys) (f : Feature) (s : Session) :
    Feature.AgreeOutside (p.reach f) f (p.visit f s).1.2 := by
  have first := (p.deriveAll_agree own f.properties.keys false f s).mono
    (List.subset_append_left _ ((p.tags.map LayerTags.keys).getD []))
  rcases derived : p.deriveAll f.properties.keys p.derivations false f s with
    ⟨⟨panic | changed, g⟩, mid⟩
  all_goals rw [derived] at first
  all_goals simp only [visit, Session.bind_apply, derived]
  · exact first.mono (p.keys_subset_reach f)
  · have second := p.runTags_agree first changed mid
    rcases tagged : p.runTags changed g mid with ⟨⟨panic | _ | _, h⟩, after⟩
    all_goals rw [tagged] at second
    · exact second
    · exact second
    · cases p.store <;> exact second

/-- A pass stays within reach on every feature, visited or not, and keeps their places. -/
theorem visitAll_agree (own : ∀ d ∈ p.derivations, d.WritesOwnKeys) (features : List Feature)
    (s : Session) :
    List.Forall₂ (fun f g => f.AgreeOutside (p.reach f) g) features
      (p.visitAll features s).1.2 := by
  induction features generalizing s with
  | nil => exact .nil
  | cons f rest ih =>
    have first := p.visit_agree own f s
    rcases visited : p.visit f s with ⟨⟨panic | changed, g⟩, mid⟩
    all_goals rw [visited] at first
    all_goals simp only [visitAll, Session.bind_apply, visited]
    · exact .cons first (List.forall₂_same.mpr fun g _ => .refl _ g)
    · exact .cons first (ih mid)

end Pass

namespace TagCompiler

/-- The keys that the tags of a layer write: those of the tags that are kept under its
id, whatever the layer defines by now, and else those of its enabled definitions. -/
def keysFor (c : TagCompiler) (layer : Layer) : List String :=
  match c.kept.lookup layer.id with
  | some kept => kept.keys
  | none => (layer.calculatedTags.filter (·.snippet.isSome)).map (·.key)

/-- A tag is what a definition of a layer compiles to. -/
structure CompiledFrom (functions : FunctionTable) (layer : String) (d : Layer.Definition)
    (t : CalculatedTag) : Prop where
  /-- The definition has the code. -/
  snippet : d.snippet = some t.source
  /-- The code was compiled. -/
  compiled : Snippet.Compiled.ofText t.source = .ok t.compiled
  /-- It is bound to the key. -/
  key : t.key = d.key
  /-- Its value is stored if the definition says so. -/
  strict : t.strict = d.strict
  /-- It belongs to the layer. -/
  layer : t.layer = layer
  /-- It may call the functions. -/
  functions : t.functions = functions

/-- Of the enabled definitions, in their order, each one is compiled to a tag. -/
theorem forall₂_of_tagsOf {functions : FunctionTable} {layer : String}
    {ds : List Layer.Definition} {tags : List CalculatedTag}
    (compiled : tagsOf functions layer ds = .ok tags) :
    List.Forall₂ (CompiledFrom functions layer) (ds.filter (·.snippet.isSome)) tags := by
  induction ds generalizing tags with
  | nil =>
    cases compiled
    exact .nil
  | cons d rest ih =>
    cases snippet : d.snippet with
    | none =>
      simp only [tagsOf, snippet] at compiled
      rw [List.filter_cons_of_neg (by simp [snippet])]
      exact ih compiled
    | some source =>
      simp only [tagsOf, snippet] at compiled
      rw [List.filter_cons_of_pos (by simp [snippet])]
      cases first : Snippet.Compiled.ofText source with
      | error panic => simp [first, bind, Except.bind] at compiled
      | ok c =>
        cases others : tagsOf functions layer rest with
        | error panic => simp [first, others, bind, Except.bind] at compiled
        | ok more =>
          simp only [first, others, bind, Except.bind] at compiled
          cases compiled
          exact .cons ⟨snippet, first, rfl, rfl, rfl, rfl⟩ (ih others)

/-- Compiled tags write the keys of the enabled definitions. -/
theorem keys_of_tagsOf {functions : FunctionTable} {layer : String}
    {ds : List Layer.Definition} {tags : List CalculatedTag}
    (compiled : tagsOf functions layer ds = .ok tags) :
    tags.map (·.key) = (ds.filter (·.snippet.isSome)).map (·.key) := by
  have each := forall₂_of_tagsOf compiled
  clear compiled
  generalize ds.filter (·.snippet.isSome) = enabled at each ⊢
  induction each with
  | nil => rfl
  | cons first _ ih => rw [List.map_cons, List.map_cons, first.key, ih]

/-- The tags that are prepared for a layer write these keys. -/
theorem keys_of_prepare {c compiler : TagCompiler} {layer : Layer} {l : LayerTags}
    {s after : Session} (prepared : c.prepare layer s = ((.ok (some l), compiler), after)) :
    l.keys = c.keysFor layer := by
  obtain ⟨lines, preparation, -⟩ := preparation_of_prepare prepared
  cases preparation with
  | kept defines found => rw [keysFor, found]
  | compiled defines missing compiles =>
    rw [keysFor, missing]
    exact keys_of_tagsOf compiles

end TagCompiler

namespace Tagger

/-- The keys under which a run may change anything about a feature: those of the allowed
derivations and of the tags of the layer and, where nothing may stay deferred, those that
are deferred before. -/
def reach (t : Tagger) (layer : Layer) (options : Options) (f : Feature) : List String :=
  let keys := (t.registry.allowed options).flatMap Derivation.keys ++ t.compiler.keysFor layer
  if options.evaluateStrict then keys ++ f.properties.deferredKeys else keys

/-- A run of standard derivations and calculated tags leaves every feature in its place in
the batch, with its id and its geometry, and changes nothing about the properties under
other keys than those of the allowed derivations and of the tags that are kept under the
id of the layer, or will be: each of them is there or is missing as before, is the same
value or the same computation, and their order is the same. Where nothing may stay
deferred this holds of the properties that are not deferred before. It does not depend on
the surroundings, the store and the methods, nor on whether the run returns. -/
theorem run_agreeOutside {t : Tagger} (standard : ∀ d ∈ t.registry, d ∈ Standard.all)
    (features : List Feature) (surroundings : Surroundings) (layer : Layer)
    (store : Option Store) (options : Options) (s : Session) :
    List.Forall₂ (fun f g => f.AgreeOutside (t.reach layer options f) g) features
      (t.run features surroundings layer store options s).1.features := by
  have unchanged : List.Forall₂ (fun f g => f.AgreeOutside (t.reach layer options f) g)
      features features := List.forall₂_same.mpr fun f _ => .refl _ f
  by_cases empty : features = []
  · subst empty
    exact .nil
  rcases prepared : t.compiler.prepare layer s with ⟨⟨panic | tags, compiler⟩, mid⟩
  · rw [t.run_of_refused surroundings layer store options s empty prepared]
    exact unchanged
  let p := t.pass tags surroundings layer store options
  have own : ∀ d ∈ p.derivations, d.WritesOwnKeys := fun d mem =>
    writesOwnKeys (standard d (List.mem_filter.mp mem).1)
  have keys : p.keys ⊆ (t.registry.allowed options).flatMap Derivation.keys ++
      t.compiler.keysFor layer := by
    cases tags with
    | none => simp [Pass.keys, p, pass]
    | some l => simp [Pass.keys, p, pass, TagCompiler.keys_of_prepare prepared]
  rw [t.run_of_prepare surroundings layer store options s empty prepared rfl]
  refine (p.visitAll_agree own features mid).imp fun f g agree => agree.mono ?_
  have strictness : p.evaluateStrict = options.evaluateStrict := rfl
  simp only [Pass.reach, reach, strictness]
  split
  · exact List.append_subset.mpr ⟨List.Subset.trans keys (List.subset_append_left _ _),
      List.subset_append_right _ _⟩
  · exact keys

/-- A tagger that keeps, under the id of a layer, a tag that writes `old`. -/
def keepingTagger : Tagger :=
  let kept : CalculatedTag :=
    ⟨.standard, "shops", "old", "feat.id", true, .ok ⟨"feat.id", .var ["feat", "id"]⟩⟩
  { start [Standard.layer] with
    compiler := ⟨.standard, [("shops", ⟨"shops", [kept]⟩)], 1⟩ }

/-- A layer with the same id that defines another tag by now. -/
def renewedLayer : Layer := ⟨"shops", some (.obj []), [⟨"name", some "feat.type", true⟩]⟩

/-- A feature with tags of its source, one of them deferred. -/
def sourcedFeature : Feature where
  id := "node/1"
  geometry := none
  properties :=
    { entries :=
        [("name", .concrete (.str "Bakery")), ("hours", .deferred ⟨0, fun _ => .done (.ok none)⟩),
          ("old", .concrete (.str "before")), ("shop", .concrete (.str "yes"))] }

/-- The run of this tagger over the feature, under which nothing may stay deferred. -/
def renewedRun : Outcome :=
  (keepingTagger.run [sourcedFeature] .detached renewedLayer none ⟨true, true, true⟩
    (.start 10)).1

/-- The tag that is kept is the one that runs, so that the key which the layer defines by
now stays as it was. What was deferred is computed and gives nothing. -/
theorem run_agreeOutside_kept :
    (∀ d ∈ keepingTagger.registry, d ∈ Standard.all) ∧
      List.Forall₂
        (fun f g => f.AgreeOutside (keepingTagger.reach renewedLayer ⟨true, true, true⟩ f) g)
        [sourcedFeature] renewedRun.features ∧
      keepingTagger.reach renewedLayer ⟨true, true, true⟩ sourcedFeature =
        ["_layer", "old", "hours"] ∧
      renewedRun.features.map (fun g => g.properties.concrete.map fun (key, v) => (key, v.text?)) =
        [[("name", some "Bakery"), ("old", some "node/1"), ("shop", some "yes"),
          ("_layer", some "shops")]] := by
  have standard : ∀ d ∈ keepingTagger.registry, d ∈ Standard.all := Standard.mem_all_of_places [1]
  refine ⟨standard, run_agreeOutside standard _ _ _ _ _ _, rfl, ?_⟩
  decide +kernel

end Tagger

end DerivedTags
