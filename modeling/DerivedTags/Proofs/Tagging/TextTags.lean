import DerivedTags.Proofs.Feature.Nesting
import DerivedTags.Proofs.Tagging.SourceTags
import DerivedTags.Proofs.Tagging.StrictRuns

/-!
# Calculated tags are texts

Under a key that only calculated tags write there is a text, a computation that gives a
text, or nothing, whatever runs there were. After the tags of a layer ran on a feature,
the last tag of a key alone decides what stands there.
-/

namespace DerivedTags

namespace Reading

variable {α β : Type}

/-- Whatever it is answered, the computation ends in a result of some kind. -/
def Ends (kind : α → Prop) : Reading α → Prop
  | .done a => kind a
  | .ask _ next => ∀ answer, (next answer).Ends kind
  | .tell _ next => next.Ends kind

/-- Every computation ends in some result. -/
theorem ends_true (r : Reading α) : r.Ends fun _ => True := by
  induction r with
  | done a => trivial
  | ask key next ih => exact ih
  | tell e next ih => exact ih

/-- A sequence ends in a result of some kind if what follows each result of its first part
does. -/
theorem Ends.bind {first : α → Prop} {last : β → Prop} {r : Reading α} {next : α → Reading β}
    (ends : r.Ends first) (onward : ∀ a, first a → (next a).Ends last) :
    (r.bind next).Ends last := by
  induction r with
  | done a => exact onward a ends
  | ask key inner ih => exact fun answer => ih answer (ends answer)
  | tell e rest ih => exact ih ends

/-- However its questions are answered, the computation gives a result of that kind. -/
theorem Ends.run {kind : α → Prop} {r : Reading α} (ends : r.Ends kind)
    (answer : String → StateM Session Answer) (s : Session) : kind (r.run answer s).1 := by
  induction r generalizing s with
  | done a => exact ends
  | ask key next ih => exact ih _ (ends _) _
  | tell e next ih => exact ih ends _

end Reading

/-- A tag that is a text, if there is one. -/
def IsText (tag : Option Json) : Prop := ∀ v, tag = some v → ∃ text, v = .str text

/-- An answer that is a text or nothing. -/
def AnswersText (a : Answer) : Prop := ∃ tag, a = .ok tag ∧ IsText tag

/-- A property that is a text, or a computation of one that may give nothing. -/
inductive Slot.Textual : Slot → Prop where
  /-- A text. -/
  | concrete (text : String) : Textual (.concrete (.str text))
  /-- A computation. -/
  | deferred {d : Deferred} (gives : ∀ view, (d.compute view).Ends AnswersText) :
      Textual (.deferred d)

namespace CalculatedTag

/-- A value is encoded as a text. -/
theorem isText_encoded (v : Snippet.Value) : IsText (encoded v) := by
  intro found same
  cases v with
  | undefined => cases same
  | _ => exact ⟨_, (Option.some.inj same).symm⟩

/-- A tag computes a text or nothing. -/
theorem compute_ends (t : CalculatedTag) (methods : FeatureMethods) (view : View) :
    (t.compute methods view).Ends IsText := by
  refine (t.outcome methods view).ends_true.bind fun result _ => ?_
  cases result with
  | ok v => exact isText_encoded v
  | error cause => exact fun _ no => nomatch no

/-- What a lazy tag leaves computes a text or nothing. -/
theorem later_ends (t : CalculatedTag) (methods : FeatureMethods) (view : View) :
    (t.later methods view).Ends AnswersText :=
  (t.compute_ends methods view).bind fun tag text => ⟨tag, rfl, text⟩

end CalculatedTag

namespace Feature

/-- Under the key there is a text, a computation of one, or nothing. -/
def TextAt (key : String) (f : Feature) : Prop :=
  ∀ slot, f.properties.slot? key = some slot → slot.Textual

variable {key : String} {f : Feature} {s : Session}

/-- Features that hold the same under the key have a text there alike. -/
theorem TextAt.congr (text : f.TextAt key) {g : Feature}
    (same : g.properties.slot? key = f.properties.slot? key) : g.TextAt key :=
  fun slot there => text slot (same ▸ there)

/-- A computation of a text that is read gives a text or nothing. -/
theorem TextAt.get {d : Deferred} (text : f.TextAt key)
    (slot : f.properties.slot? key = some (.deferred d)) : AnswersText (f.get key s).1 := by
  have absent : AnswersText (.ok none) := ⟨none, rfl, fun _ no => nomatch no⟩
  rw [get_deferred slot, Deferred.evaluate_apply]
  split
  · exact absent
  · cases text _ slot with
    | deferred gives => exact (gives f.view).run _ _

/-- Forcing any property keeps what is under the key a text. -/
theorem TextAt.force (text : f.TextAt key) (other : String) :
    (f.force other s).1.2.TextAt key := by
  rcases slot : f.properties.slot? other with _ | ⟨v | d⟩
  · simpa [Feature.force, slot] using text
  · simpa [Feature.force, slot] using text
  · rw [force_apply slot]
    by_cases own : key = other
    · subst own
      obtain ⟨tag, given, isText⟩ := text.get (s := s) slot
      intro found there
      rw [given] at there
      cases tag with
      | none => simp [kept, erase, withProperties, Properties.slot?_erase] at there
      | some v =>
        obtain ⟨shown, rfl⟩ := isText v rfl
        obtain rfl : .concrete (.str shown) = found := by
          simpa [kept, set, withProperties, Properties.slot?_set] using there
        exact .concrete shown
    · refine text.congr ?_
      rcases (f.get other s).1 with panic | _ | v
      · rfl
      · simp [kept, erase, withProperties, Properties.slot?_erase, own]
      · simp [kept, set, withProperties, Properties.slot?_set, own]

/-- Forcing keys keeps what is under the key a text, up to a panic too. -/
theorem TextAt.forceKeys (text : f.TextAt key) (keys : List String) :
    (f.forceKeys keys s).1.2.TextAt key := by
  induction keys generalizing f s with
  | nil => exact text
  | cons other rest ih =>
    have first := text.force (s := s) other
    rcases forced : f.force other s with ⟨⟨panic | v, g⟩, after⟩
    all_goals rw [forced] at first
    all_goals simp only [Feature.forceKeys, Session.bind_apply, forced]
    · exact first
    · exact ih first

end Feature

/-- What a tag leaves under its key: a strict one the encoded value of its snippet or, if
that failed or gave no value, nothing; a lazy one the computation. -/
def CalculatedTag.leaves (t : CalculatedTag) (methods : FeatureMethods) (f : Feature)
    (s : Session) : Option Slot :=
  if t.strict then
    match (f.run (t.outcome methods f.view) s).1 with
    | .ok v => (encoded v).map .concrete
    | .error _ => none
  else some (.deferred ⟨s.nextDeferred, t.later methods⟩)

namespace CalculatedTag

variable {t : CalculatedTag} (methods : FeatureMethods) (f : Feature) (s : Session)

/-- What the snippet computes, encoded. -/
theorem run_compute_fst :
    (f.run (t.compute methods f.view) s).1 =
      match (f.run (t.outcome methods f.view) s).1 with
      | .ok v => encoded v
      | .error _ => none := by
  simp only [compute, Feature.run, Reading.run_bind, Session.bind_apply]
  cases ((t.outcome methods f.view).run f.get s).1 with
  | ok v => rfl
  | error cause => rfl

/-- After a tag ran, what it leaves is under its key. -/
theorem slot?_run : (t.run methods f s).1.properties.slot? t.key = t.leaves methods f s := by
  cases strict : t.strict with
  | true =>
    rw [run_strict methods f s strict, slot?_store, if_pos rfl, run_compute_fst, leaves,
      if_pos strict]
    cases (f.run (t.outcome methods f.view) s).1 with
    | ok v => rfl
    | error cause => rfl
  | false =>
    rw [run_lazy methods f s strict]
    simp [leaves, strict, Feature.set, Feature.withProperties, Properties.slot?_set]

/-- What a tag leaves is a text or a computation of one. -/
theorem textual_of_leaves {slot : Slot} (leaves : t.leaves methods f s = some slot) :
    slot.Textual := by
  cases strict : t.strict with
  | true =>
    simp only [CalculatedTag.leaves, strict, if_true] at leaves
    cases computed : (f.run (t.outcome methods f.view) s).1 with
    | error cause => simp [computed] at leaves
    | ok v =>
      simp only [computed] at leaves
      obtain ⟨tag, encoding, rfl⟩ := Option.map_eq_some_iff.mp leaves
      obtain ⟨text, rfl⟩ := isText_encoded v tag encoding
      exact .concrete text
  | false =>
    simp only [CalculatedTag.leaves, strict, Bool.false_eq_true, if_false,
      Option.some.injEq] at leaves
    exact leaves ▸ .deferred fun view => t.later_ends methods view

variable {methods f s}

/-- Running a tag keeps what is under a key a text. -/
theorem textAt_run {key : String} (text : f.TextAt key) : (t.run methods f s).1.TextAt key := by
  by_cases own : key = t.key
  · subst own
    intro slot there
    rw [slot?_run] at there
    exact textual_of_leaves methods f s there
  · exact text.congr ((t.run_agree methods f s).slot?_eq (by simpa using own))

end CalculatedTag

namespace LayerTags

/-- Tags run one after the other, also in two parts. -/
theorem runAll_append (methods : FeatureMethods) (first rest : List CalculatedTag) (f : Feature)
    (s : Session) :
    runAll methods (first ++ rest) f s =
      runAll methods rest (runAll methods first f s).1 (runAll methods first f s).2 := by
  induction first generalizing f s with
  | nil => rfl
  | cons t others ih => exact ih _ _

/-- The last tag of a key decides what is under it. -/
theorem slot?_runAll {t : CalculatedTag} {after : List CalculatedTag}
    (last : t.key ∉ after.map (·.key)) (methods : FeatureMethods) (before : List CalculatedTag)
    (f : Feature) (s : Session) :
    (runAll methods (before ++ t :: after) f s).1.properties.slot? t.key =
      t.leaves methods (runAll methods before f s).1 (runAll methods before f s).2 := by
  rw [runAll_append]
  generalize runAll methods before f s = mid
  have later := (runAll_agree methods after (t.run methods mid.1 mid.2).1
    (t.run methods mid.1 mid.2).2).slot?_eq last
  exact later.trans (t.slot?_run methods mid.1 mid.2)

/-- Running tags keeps what is under a key a text. -/
theorem textAt_runAll {key : String} (methods : FeatureMethods) (tags : List CalculatedTag)
    {f : Feature} {s : Session} (text : f.TextAt key) :
    (runAll methods tags f s).1.TextAt key := by
  induction tags generalizing f s with
  | nil => exact text
  | cons t rest ih => exact ih (t.textAt_run text)

/-- Running the tags of a layer keeps what is under a key a text, whatever becomes of the
methods. -/
theorem textAt_run {key : String} (l : LayerTags) (source : MethodSource)
    (surroundings : Surroundings) {f : Feature} {s : Session} (text : f.TextAt key) :
    (l.run source surroundings f s).1.TextAt key := by
  simp only [run, Session.bind_apply]
  rcases f.run (source.attach surroundings f.view) (noteCall (.attached f.id) s).2 with
    ⟨panic | e | methods, after⟩
  · exact text
  · exact text
  · exact textAt_runAll methods l.tags text

end LayerTags

namespace Pass

variable {p : Pass} {key : String} {f : Feature} {s : Session}

/-- Running the tags of a pass keeps what is under a key a text, also where it is forced. -/
theorem textAt_runTags (changed : Bool) (text : f.TextAt key) :
    (p.runTags changed f s).1.2.TextAt key := by
  unfold runTags
  cases p.tags with
  | none => exact text
  | some l =>
    have ran := l.textAt_run p.methods p.surroundings (s := s) text
    simp only [Session.bind_apply]
    split
    · exact ran.forceKeys _
    · exact ran

/-- A visit keeps what is under a key a text that no derivation writes. -/
theorem textAt_visit (own : ∀ d ∈ p.derivations, d.WritesOwnKeys)
    (other : key ∉ p.derivations.flatMap Derivation.keys) (text : f.TextAt key) :
    (p.visit f s).1.2.TextAt key := by
  have agree := p.deriveAll_agree own f.properties.keys false f s
  rcases derived : p.deriveAll f.properties.keys p.derivations false f s with
    ⟨⟨panic | changed, g⟩, mid⟩
  all_goals rw [derived] at agree
  all_goals have textDerived : g.TextAt key := text.congr (agree.slot?_eq other)
  all_goals simp only [visit, Session.bind_apply, derived]
  · exact textDerived
  · have tagged : (p.runTags changed g mid).1.2.TextAt key := textAt_runTags changed textDerived
    rcases ran : p.runTags changed g mid with ⟨⟨panic | _ | _, h⟩, after⟩
    all_goals rw [ran] at tagged
    · exact tagged
    · exact tagged
    · cases p.store <;> exact tagged

/-- What every visit does to a feature, and doing nothing does too, is done to each feature
of a pass, in its place. -/
theorem visitAll_forall₂ {does : Feature → Feature → Prop} (nothing : ∀ f, does f f)
    (visits : ∀ f s, does f (p.visit f s).1.2) (features : List Feature) (s : Session) :
    List.Forall₂ does features (p.visitAll features s).1.2 := by
  have unchanged (rest : List Feature) : List.Forall₂ does rest rest :=
    List.forall₂_same.mpr fun f _ => nothing f
  induction features generalizing s with
  | nil => exact .nil
  | cons f rest ih =>
    have first := visits f s
    rcases visited : p.visit f s with ⟨⟨panic | changed, g⟩, mid⟩
    all_goals rw [visited] at first
    all_goals simp only [visitAll, Session.bind_apply, visited]
    · exact .cons first (unchanged rest)
    · exact .cons first (ih mid)

end Pass

namespace Tagger

/-- What every visit does to a feature, and doing nothing does too, is done to each feature
of a run, in its place, also where a panic ends the run. -/
theorem run_forall₂ {does : Feature → Feature → Prop} {t : Tagger} (nothing : ∀ f, does f f)
    {surroundings : Surroundings} {layer : Layer} {store : Option Store} {options : Options}
    (visits : ∀ tags f s,
      does f ((t.pass tags surroundings layer store options).visit f s).1.2)
    (features : List Feature) (s : Session) :
    List.Forall₂ does features
      (t.run features surroundings layer store options s).1.features := by
  have unchanged : List.Forall₂ does features features :=
    List.forall₂_same.mpr fun f _ => nothing f
  by_cases empty : features = []
  · subst empty
    exact .nil
  rcases prepared : t.compiler.prepare layer s with ⟨⟨panic | tags, compiler⟩, mid⟩
  · rw [t.run_of_refused surroundings layer store options s empty prepared]
    exact unchanged
  · rw [t.run_of_prepare surroundings layer store options s empty prepared rfl]
    exact Pass.visitAll_forall₂ nothing (visits tags) features mid

/-- What a feature becomes in runs of standard derivations: each of them takes it in some
batch, whatever tags are kept and whatever happened before, and what stands in its place
afterwards is what it became. -/
inductive AfterRuns (f : Feature) : Feature → Prop where
  /-- No run so far. -/
  | none : AfterRuns f f
  /-- One more run. -/
  | run {g h : Feature} {t : Tagger} {batch : List Feature} {surroundings : Surroundings}
      {layer : Layer} {store : Option Store} {options : Options} {s : Session}
      (earlier : AfterRuns f g) (standard : ∀ d ∈ t.registry, d ∈ Standard.all)
      (place : (g, h) ∈ batch.zip (t.run batch surroundings layer store options s).1.features) :
      AfterRuns f h

/-- Runs keep what is under a key a text that no standard derivation writes. -/
theorem AfterRuns.textAt {key : String} {f g : Feature}
    (other : key ∉ Standard.all.flatMap Derivation.keys) (runs : AfterRuns f g)
    (text : f.TextAt key) : g.TextAt key := by
  induction runs with
  | none => exact text
  | @run g h t batch surroundings layer store options s _ standard place ih =>
    have visits (tags : Option LayerTags) (f : Feature) (s : Session) (text : f.TextAt key) :
        ((t.pass tags surroundings layer store options).visit f s).1.2.TextAt key := by
      have std : ∀ d ∈ t.registry.allowed options, d ∈ Standard.all := fun d mem =>
        standard d (List.mem_filter.mp mem).1
      refine Pass.textAt_visit (fun d mem => Standard.writesOwnKeys (std d mem)) ?_ text
      rw [List.mem_flatMap] at other ⊢
      rintro ⟨d, mem, own⟩
      exact other ⟨d, std d mem, own⟩
    have ran : List.Forall₂ (fun f g => f.TextAt key → g.TextAt key) batch
        (t.run batch surroundings layer store options s).1.features :=
      t.run_forall₂ (fun _ text => text) visits batch s
    exact (List.forall₂_iff_zip.mp ran).2 place ih

/-- Let no standard derivation write a key that a feature lacks. Whatever runs there are,
with whatever methods and options, and also where panics end them, under that key there is
nothing, a computation that gives a text or nothing, or a text. And wherever methods could
be attached, after the tags of a layer ran on a feature the last tag of the key alone has
decided: if it is lazy its computation is there, and if it is strict the encoded value that
its snippet gave of the properties as they stood right before it ran, or nothing, if it
failed or gave no value. -/
theorem calculated_key_texts {key : String}
    (other : key ∉ Standard.all.flatMap Derivation.keys) :
    (∀ f g, f.properties.slot? key = none → AfterRuns f g →
        g.properties.slot? key = none ∨
          (∃ d, g.properties.slot? key = some (.deferred d) ∧
            ∀ view, (d.compute view).Ends AnswersText) ∨
          ∃ text, g.properties.slot? key = some (.concrete (.str text))) ∧
      ∀ (l : LayerTags) (source : MethodSource) (surroundings : Surroundings) (f : Feature)
        (s : Session) (methods : FeatureMethods) (attached : Session)
        (before : List CalculatedTag) (t : CalculatedTag) (after : List CalculatedTag),
        f.run (source.attach surroundings f.view) (noteCall (.attached f.id) s).2 =
            (.ok (.ok methods), attached) →
          l.tags = before ++ t :: after → t.key = key → key ∉ after.map (·.key) →
            let (g, s') := LayerTags.runAll methods before f attached
            (l.run source surroundings f s).1.properties.slot? key =
              if t.strict then
                match (g.run (t.outcome methods g.view) s').1 with
                | .ok v => (CalculatedTag.encoded v).map .concrete
                | .error _ => none
              else some (.deferred ⟨s'.nextDeferred, t.later methods⟩) := by
  constructor
  · intro f g absent runs
    have text : g.TextAt key := runs.textAt other fun slot there => by
      rw [absent] at there
      cases there
    cases slot : g.properties.slot? key with
    | none => exact .inl rfl
    | some found =>
      cases text found slot with
      | concrete text => exact .inr (.inr ⟨text, rfl⟩)
      | deferred gives => exact .inr (.inl ⟨_, rfl, gives⟩)
  · rintro l source surroundings f s methods attached before t after attaching tags rfl last
    have ran : l.run source surroundings f s =
        LayerTags.runAll methods (before ++ t :: after) f attached := by
      simp only [LayerTags.run, Session.bind_apply, attaching, tags]
    rw [ran]
    exact LayerTags.slot?_runAll last methods before f attached

/-- A lazy tag and then a strict one under the same key, and one more under another key. -/
def redefiningTags : LayerTags :=
  let tag (key : String) (strict : Bool) (expr : Snippet.Expr) : CalculatedTag :=
    ⟨.standard, "shops", key, "", strict, .ok ⟨"", expr⟩⟩
  ⟨"shops",
    [tag "_x" false (.var ["feat", "id"]), tag "_x" true (.var ["feat", "properties", "_x"]),
      tag "_y" true (.var ["feat", "type"])]⟩

/-- A tagger that keeps these tags under the id of a layer. -/
def redefiningTagger : Tagger :=
  { start [Standard.layer] with compiler := ⟨.standard, [("shops", redefiningTags)], 1⟩ }

/-- A run of this tagger over a feature without properties. -/
def redefiningRun : Outcome :=
  (redefiningTagger.run [bareFeature] .detached taggedLayer none .default (.start 10)).1

/-- The strict tag reads the property that the lazy one just left, and stores what it
gives. -/
theorem calculated_key_texts_redefined :
    "_x" ∉ Standard.all.flatMap Derivation.keys ∧
      (∀ g, (bareFeature, g) ∈ [bareFeature].zip redefiningRun.features →
        g.properties.slot? "_x" = none ∨
          (∃ d, g.properties.slot? "_x" = some (.deferred d) ∧
            ∀ view, (d.compute view).Ends AnswersText) ∨
          ∃ text, g.properties.slot? "_x" = some (.concrete (.str text))) ∧
      redefiningRun.features.map
          (fun g => g.properties.concrete.map fun (key, v) => (key, v.text?)) =
        [[("_layer", some "shops"), ("_x", some "a"), ("_y", some "Feature")]] := by
  have other : "_x" ∉ Standard.all.flatMap Derivation.keys := by decide
  have standard : ∀ d ∈ redefiningTagger.registry, d ∈ Standard.all :=
    Standard.mem_all_of_places [1]
  refine ⟨other, fun g place => ?_, ?_⟩
  · exact (calculated_key_texts other).1 bareFeature g rfl (.run .none standard place)
  · decide +kernel

end Tagger

end DerivedTags
