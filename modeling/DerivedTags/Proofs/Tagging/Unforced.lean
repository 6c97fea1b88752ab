import Mathlib.Data.List.Forall2
import DerivedTags.Proofs.Feature.Shown
import DerivedTags.Proofs.Tagging.Runs
import DerivedTags.Proofs.Tagging.SideBySide

/-!
# Runs that compute nothing deferred

A run of standard derivations and lazy tags, under which properties may stay deferred,
computes none of them. Two runs show it over batches that differ only in the
computations of deferred properties: whatever these are, and whatever they would let be
known, both runs give the same and end in the same session.
-/

namespace DerivedTags

open DerivedTags.Standard

/-- Each of two features holds what the other one holds, or still the deferred property
that it held in the beginning. -/
structure Feature.KeepsOwn (f₀ g₀ f g : Feature) : Prop extends ShowsSame f g where
  /-- Under each key there is the same, or on both sides the computation of before. -/
  own : ∀ key, g.properties.slot? key = f.properties.slot? key ∨
    ∃ d e, f₀.properties.slot? key = some (.deferred d) ∧
      f.properties.slot? key = some (.deferred d) ∧
      g₀.properties.slot? key = some (.deferred e) ∧
      g.properties.slot? key = some (.deferred e)

namespace Feature.KeepsOwn

variable {f₀ g₀ f g : Feature}

/-- In the beginning each feature holds what it holds. -/
theorem start (same : f.ShowsSame g) : KeepsOwn f g f g :=
  ⟨same, fun key => (Properties.slot?_of_shown same.shown key).imp_right
    fun ⟨d, e, here, there⟩ => ⟨d, e, here, here, there, there⟩⟩

/-- Both features may get the same property. -/
theorem set (keeps : KeepsOwn f₀ g₀ f g) (key : String) (slot : Slot) :
    KeepsOwn f₀ g₀ (f.set key slot) (g.set key slot) := by
  refine ⟨⟨keeps.id, keeps.geometry, Properties.shown_set keeps.shown key rfl⟩, fun other => ?_⟩
  simp only [Feature.set, withProperties, Properties.slot?_set]
  split
  · exact .inl rfl
  · exact keeps.own other

/-- Both features may lose the same property. -/
theorem erase (keeps : KeepsOwn f₀ g₀ f g) (key : String) :
    KeepsOwn f₀ g₀ (f.erase key) (g.erase key) := by
  refine ⟨⟨keeps.id, keeps.geometry, Properties.shown_erase keeps.shown key⟩, fun other => ?_⟩
  simp only [Feature.erase, withProperties, Properties.slot?_erase]
  split
  · exact .inl rfl
  · exact keeps.own other

end Feature.KeepsOwn

/-- Two runs in the same session over features that hold computations of their own. -/
def Pairing.unforced (f₀ g₀ : Feature) : Pairing where
  sessions s t := t = s
  features _ f _ g := f₀.KeepsOwn g₀ f g
  allows _ := True
  looksLike keeps :=
    ⟨keeps.id, keeps.geometry, Properties.concrete?_of_shown keeps.shown,
      Properties.contains_of_shown keeps.shown⟩
  addEvent e same := by rw [same]
  addLines lines same := by rw [same]
  tick same := by rw [same]
  newDeferred same := by rw [same]
  onward _ _ keeps := keeps
  put key v keeps := keeps.set key _
  remove key keeps := keeps.erase key
  leave key _ same keeps := by
    rw [same]
    exact keeps.set key _
  measures _ := trivial
  later _ _ _ _ := trivial

namespace Pass

variable {p : Pass}

/-- The pass computes no property: it may leave them deferred, its derivations are
standard ones and its tags are lazy. -/
structure Unforcing (p : Pass) : Prop where
  /-- Its derivations are standard ones. -/
  derivations : ∀ d ∈ p.derivations, d ∈ all
  /-- Its methods are the standard ones. -/
  methods : p.methods = .standard
  /-- Its tags are lazy. -/
  tags : ∀ l, p.tags = some l → ∀ tag ∈ l.tags, tag.strict = false
  /-- Properties may stay deferred. -/
  lenient : p.evaluateStrict = false

/-- Such a pass visits features that show the same side by side. -/
theorem Unforcing.visit (unforcing : p.Unforcing) {f g : Feature} (same : f.ShowsSame g)
    (s : Session) : (Pairing.unforced f g).Beside (p.visit f s) (p.visit g s) := by
  have start : (Pairing.unforced f g).Paired s f s g := ⟨rfl, .start same⟩
  have forces : p.evaluateStrict = true → (Pairing.unforced f g).Forces := by
    rw [unforcing.lenient]
    exact fun no => nomatch no
  have keys : g.properties.keys = f.properties.keys := same.exports.1
  refine Pairing.visit (.refl unforcing.methods) forces (fun l tags tag mem strict => ?_) ?_
  · rw [unforcing.tags l tags tag mem] at strict
    cases strict
  · rw [keys]
    exact Pairing.deriveAll (fun same => by rw [same]) forces unforcing.derivations _ _ start

/-- Such a pass over batches that show the same gives the same result and ends in the same
session. Each feature shows the same afterwards, and the two hold different properties
only where they have kept their own. -/
theorem Unforcing.visitAll (unforcing : p.Unforcing) {features features' : List Feature}
    (same : List.Forall₂ Feature.ShowsSame features features') (s : Session) :
    let here := p.visitAll features s
    let there := p.visitAll features' s
    there.1.1 = here.1.1 ∧ there.2 = here.2 ∧
      List.Forall₂ Feature.ShowsSame here.1.2 there.1.2 ∧
      List.Forall₂ (fun before after => before.1.KeepsOwn before.2 after.1 after.2)
        (features.zip features') (here.1.2.zip there.1.2) := by
  induction same generalizing s with
  | nil => exact ⟨rfl, rfl, .nil, .nil⟩
  | @cons f g rest rest' first others ih =>
    obtain ⟨result, session, keeps⟩ := unforcing.visit first s
    rcases visited : p.visit f s with ⟨⟨panic | changed, f'⟩, mid⟩
    all_goals rcases visitedThere : p.visit g s with ⟨⟨result', g'⟩, mid'⟩
    all_goals rw [visited, visitedThere] at result session keeps
    all_goals obtain rfl : result' = _ := result
    all_goals obtain rfl : mid' = mid := session
    all_goals simp only [Pass.visitAll, Session.bind_apply, visited, visitedThere]
    · have rests : List.Forall₂ (fun before after => before.1.KeepsOwn before.2 after.1 after.2)
          (rest.zip rest') (rest.zip rest') :=
        List.forall₂_same.mpr fun _ mem => .start ((List.forall₂_iff_zip.mp others).2 mem)
      exact ⟨rfl, rfl, .cons keeps.toShowsSame others, .cons keeps rests⟩
    · obtain ⟨results, sessions, shown, kept⟩ := ih mid'
      simp only [Session.pure_apply, results, sessions, true_and]
      exact ⟨.cons keeps.toShowsSame shown, .cons keeps kept⟩

end Pass

namespace Tagger

/-- A run of standard derivations and lazy tags, with the standard methods and under
options that let properties stay deferred, computes no deferred property. Two runs over
batches that differ at most in the computations of deferred properties give the same
result and end in the same session: the same was called and logged, whatever these
computations would give or let be known. Afterwards each feature shows the same on both
sides and has the same JSON form, and two properties differ only where both sides still
have the deferred property that was there before. Enumerating properties, testing for
their presence and the JSON form do not compute any either. -/
theorem run_unforced {t : Tagger} (standard : ∀ d ∈ t.registry, d ∈ Standard.all)
    (methods : t.methods = .standard) {layer : Layer}
    (lazy : ∀ l, t.compiler.tagsFor layer = .ok (some l) → ∀ tag ∈ l.tags, tag.strict = false)
    {options : Options} (lenient : options.evaluateStrict = false)
    {features features' : List Feature}
    (same : List.Forall₂ Feature.ShowsSame features features') (surroundings : Surroundings)
    (store : Option Store) (s : Session) :
    let here := t.run features surroundings layer store options s
    let there := t.run features' surroundings layer store options s
    there.1.result = here.1.result ∧ there.2 = here.2 ∧
      List.Forall₂ Feature.ShowsSame here.1.features there.1.features ∧
      List.Forall₂ (fun before after => before.1.KeepsOwn before.2 after.1 after.2)
        (features.zip features') (here.1.features.zip there.1.features) ∧
      ∀ f g : Feature, f.ShowsSame g →
        g.properties.keys = f.properties.keys ∧ g.properties.concrete = f.properties.concrete ∧
          (∀ key, g.properties.contains key = f.properties.contains key) ∧
          (∀ key, g.properties.concrete? key = f.properties.concrete? key) ∧
          g.toJson = f.toJson := by
  suffices runs :
      let here := t.run features surroundings layer store options s
      let there := t.run features' surroundings layer store options s
      there.1.result = here.1.result ∧ there.2 = here.2 ∧
        List.Forall₂ Feature.ShowsSame here.1.features there.1.features ∧
        List.Forall₂ (fun before after => before.1.KeepsOwn before.2 after.1 after.2)
          (features.zip features') (here.1.features.zip there.1.features) from
    ⟨runs.1, runs.2.1, runs.2.2.1, runs.2.2.2, fun _ _ shown => shown.exports⟩
  have unchanged : List.Forall₂ (fun before after => before.1.KeepsOwn before.2 after.1 after.2)
      (features.zip features') (features.zip features') :=
    List.forall₂_same.mpr fun _ mem => .start ((List.forall₂_iff_zip.mp same).2 mem)
  by_cases empty : features = []
  · subst empty
    cases same
    exact ⟨rfl, rfl, .nil, .nil⟩
  have emptyThere : features' ≠ [] := by
    rintro rfl
    cases same
    exact empty rfl
  obtain ⟨compiler, lines, -, prepared⟩ := t.compiler.prepare_apply layer
  replace prepared := prepared s
  cases tags : t.compiler.tagsFor layer with
  | error panic =>
    rw [tags] at prepared
    rw [t.run_of_refused surroundings layer store options s empty prepared,
      t.run_of_refused surroundings layer store options s emptyThere prepared]
    exact ⟨rfl, rfl, same, unchanged⟩
  | ok prepares =>
    rw [tags] at prepared
    let p := t.pass prepares surroundings layer store options
    have unforcing : p.Unforcing :=
      ⟨fun d mem => standard d (List.mem_filter.mp mem).1, methods,
        fun l found => lazy l (by rw [tags]; exact congrArg Except.ok found), lenient⟩
    rw [t.run_of_prepare surroundings layer store options s empty prepared rfl,
      t.run_of_prepare surroundings layer store options s emptyThere prepared rfl]
    exact unforcing.visitAll same (s.addLines lines)

/-- A tagger that keeps a lazy tag under the id of a layer. -/
def lazyTagger : Tagger :=
  let label : CalculatedTag :=
    ⟨.standard, "shops", "label", "feat.properties.name", false,
      .ok ⟨"feat.properties.name", .var ["feat", "properties", "name"]⟩⟩
  { start [Standard.surface, Standard.layer] with
    compiler := ⟨.standard, [("shops", ⟨"shops", [label]⟩)], 1⟩ }

/-- The layer of this tag. -/
def lazyLayer : Layer := ⟨"shops", some (.obj []), [⟨"label", some "feat.properties.name", false⟩]⟩

/-- A feature with a deferred name and half of its surface, both computed so. -/
def halfMeasured (compute : View → Reading Answer) : Feature where
  id := "way/1"
  geometry := none
  properties :=
    { entries := [("name", .deferred ⟨0, compute⟩), ("_surface", .deferred ⟨1, compute⟩)] }

/-- A name that is a text. -/
def bakery : View → Reading Answer := fun _ => .done (.ok (some (.str "Bakery")))

/-- A name that lets a call be known and panics. -/
def broken : View → Reading Answer :=
  fun _ => .tell (.call (.computed "name")) (.done (.error ⟨none⟩))

/-- Whether the name gives a text, or lets a call be known and panics, is the same to the
run, although the tag of the layer reads it. -/
theorem run_unforced_name :
    let here := lazyTagger.run [halfMeasured bakery] .detached lazyLayer none .default (.start 10)
    let there := lazyTagger.run [halfMeasured broken] .detached lazyLayer none .default (.start 10)
    ((∀ d ∈ lazyTagger.registry, d ∈ Standard.all) ∧ lazyTagger.methods = .standard ∧
        (∀ l, lazyTagger.compiler.tagsFor lazyLayer = .ok (some l) →
          ∀ tag ∈ l.tags, tag.strict = false) ∧
        Options.default.evaluateStrict = false ∧
        List.Forall₂ Feature.ShowsSame [halfMeasured bakery] [halfMeasured broken]) ∧
      (there.1.result = here.1.result ∧ there.2 = here.2 ∧
        List.Forall₂ Feature.ShowsSame here.1.features there.1.features) ∧
      here.1.features.map (·.properties.keys) =
        [["name", "_surface", "_surface:ha", "_layer", "label"]] := by
  intro here there
  have standard : ∀ d ∈ lazyTagger.registry, d ∈ Standard.all := Standard.mem_all_of_places [3, 1]
  have lazy : ∀ l, lazyTagger.compiler.tagsFor lazyLayer = .ok (some l) →
      ∀ tag ∈ l.tags, tag.strict = false := by
    intro l tags tag mem
    obtain rfl := Option.some.inj (Except.ok.inj tags)
    rw [List.mem_singleton.mp mem]
  have same : List.Forall₂ Feature.ShowsSame [halfMeasured bakery] [halfMeasured broken] :=
    .cons ⟨rfl, rfl, rfl⟩ .nil
  have runs := run_unforced standard rfl lazy (rfl : Options.default.evaluateStrict = false) same
    .detached none (.start 10)
  refine ⟨⟨standard, rfl, lazy, rfl, same⟩, ⟨runs.1, runs.2.1, runs.2.2.1⟩, ?_⟩
  decide +kernel

end Tagger

end DerivedTags
