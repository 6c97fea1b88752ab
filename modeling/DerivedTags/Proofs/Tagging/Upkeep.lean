import DerivedTags.Proofs.Feature.UnderComputation
import DerivedTags.Proofs.Tagging.OrderlyRuns
import DerivedTags.Proofs.Tagging.TagSteps

/-!
# What runs keep of a feature

Runs write to a feature in three ways: they put a value, remove a key, or leave a
computation under a number that is new. A property of features that survives these
survives every run, also one that a panic ends. Which computations may be left depends
on the property; those of calculated tags always may.
-/

namespace DerivedTags

/-- A property of features that survives what runs write. -/
structure Upkeep where
  /-- The property, once so many numbers were given out. -/
  holds : Nat → Feature → Prop
  /-- The computations that may be left. -/
  allows : (View → Reading Answer) → Prop
  /-- More numbers may be given out. -/
  mono : ∀ {given more : Nat} {f : Feature}, given ≤ more → holds given f → holds more f
  /-- A value may be put. -/
  put : ∀ {given : Nat} {f : Feature} (key : String) (v : Json),
    holds given f → holds given (f.set key (.concrete v))
  /-- A key may be removed. -/
  remove : ∀ {given : Nat} {f : Feature} (key : String),
    holds given f → holds given (f.erase key)
  /-- A computation may be left under a number that was given out. -/
  leave : ∀ {given id : Nat} {f : Feature} {compute : View → Reading Answer} (key : String),
    id < given → allows compute → holds given f →
      holds given (f.set key (.deferred ⟨id, compute⟩))
  /-- The computation of a tag may be left. -/
  later : ∀ (t : CalculatedTag) (methods : FeatureMethods), allows (t.later methods)

namespace Upkeep

variable (law : Upkeep)

/-- The property holds of a feature in a session. -/
def At (s : Session) (f : Feature) : Prop := law.holds s.nextDeferred f

/-- An edit leaves only computations that may be left. -/
def Permits : Edit → Prop
  | .defer _ compute => law.allows compute
  | _ => True

/-- A derivation proposes such edits only. -/
def Admits (d : Derivation) : Prop :=
  ∀ layer surroundings moment f s,
    ∀ e ∈ (Feature.run f (d.propose layer surroundings moment f) s).1.edits, law.Permits e

variable {f : Feature} {s t : Session}

/-- What holds in a session holds in those that come after it. -/
theorem onward (orderly : s.Precedes t) (holds : law.At s f) : law.At t f :=
  law.mono orderly.numbers holds

/-- Forcing a property puts its value or removes its key. -/
theorem force (holds : law.At s f) (key : String) :
    law.At (f.force key s).2 (f.force key s).1.2 := by
  refine law.onward (Orderly.discipline.force f key s) ?_
  rcases f.force_snd key s with same | same
  · rwa [same]
  · rw [same]
    rcases (f.get key s).1 with panic | _ | v
    · exact holds
    · exact law.remove key holds
    · exact law.put key v holds

/-- Forcing keys keeps the property, up to a panic too. -/
theorem forceKeys (keys : List String) (holds : law.At s f) :
    law.At (f.forceKeys keys s).2 (f.forceKeys keys s).1.2 := by
  induction keys generalizing f s with
  | nil => exact holds
  | cons key rest ih =>
    have first := law.force holds key
    rcases forced : f.force key s with ⟨⟨panic | v, g⟩, after⟩
    all_goals rw [forced] at first
    all_goals simp only [Feature.forceKeys, Session.bind_apply, forced]
    · exact first
    · exact ih first

/-- Edits keep the property. -/
theorem edits {edits : List Edit} (permitted : ∀ e ∈ edits, law.Permits e)
    (holds : law.At s f) :
    law.At (Edit.applyAll edits f s).2 (Edit.applyAll edits f s).1 := by
  induction edits generalizing f s with
  | nil => exact holds
  | cons e rest ih =>
    have others : ∀ e ∈ rest, law.Permits e := fun e mem =>
      permitted e (List.mem_cons_of_mem _ mem)
    cases e with
    | insert key value => exact ih others (law.put key value holds)
    | remove key => exact ih others (law.remove key holds)
    | defer key compute =>
      have allowed : law.allows compute := permitted _ List.mem_cons_self
      have counted : law.At (newDeferred s).2 f := law.mono (Nat.le_succ _) holds
      exact ih others (law.leave key (Nat.lt_succ_self s.nextDeferred) allowed counted)

/-- Running a derivation keeps the property, whatever becomes of it. -/
theorem derivation {d : Derivation} (admitted : law.Admits d) (layer : Layer)
    (surroundings : Surroundings) (holds : law.At s f) :
    law.At (d.runContained layer surroundings f s).2
      (d.runContained layer surroundings f s).1.2 := by
  let proposing := f.run (d.propose layer surroundings (surroundings.clock s.ticks) f) (tick s).2
  have read : s.Precedes proposing.2 :=
    (Orderly.tick s).trans (Orderly.discipline.run f _ (tick s).2)
  have edited : law.At (Edit.applyAll proposing.1.edits f proposing.2).2
      (Edit.applyAll proposing.1.edits f proposing.2).1 :=
    law.edits (admitted layer surroundings _ f _) (law.onward read holds)
  have ran : d.run layer surroundings f s =
      ((proposing.1.verdict, (Edit.applyAll proposing.1.edits f proposing.2).1),
        (Edit.applyAll proposing.1.edits f proposing.2).2) := rfl
  simp only [Derivation.runContained, Session.bind_apply, ran]
  rcases proposing.1.verdict with panic | e | changed
  · exact edited
  · exact edited
  · exact edited

/-- A calculated tag keeps the property. -/
theorem tag (t : CalculatedTag) (methods : FeatureMethods) (holds : law.At s f) :
    law.At (t.run methods f s).2 (t.run methods f s).1 := by
  cases strict : t.strict with
  | true =>
    rw [t.run_strict methods f s strict]
    refine law.onward (Orderly.discipline.run f _ s) ?_
    cases (f.run (t.compute methods f.view) s).1 with
    | none => exact law.remove t.key holds
    | some v => exact law.put t.key v holds
  | false =>
    rw [t.run_lazy methods f s strict]
    have counted : law.At (newDeferred s).2 f := law.mono (Nat.le_succ _) holds
    exact law.leave t.key (Nat.lt_succ_self s.nextDeferred) (law.later t methods) counted

/-- Calculated tags one after the other keep the property. -/
theorem tags (methods : FeatureMethods) (tags : List CalculatedTag) (holds : law.At s f) :
    law.At (LayerTags.runAll methods tags f s).2 (LayerTags.runAll methods tags f s).1 := by
  induction tags generalizing f s with
  | nil => exact holds
  | cons t rest ih => exact ih (law.tag t methods holds)

/-- Running the tags of a layer keeps the property, whatever becomes of the methods. -/
theorem layerTags (l : LayerTags) (source : MethodSource) (surroundings : Surroundings)
    (holds : law.At s f) :
    law.At (l.run source surroundings f s).2 (l.run source surroundings f s).1 := by
  have attaching := (Orderly.discipline.noteCall (.attached f.id) s).trans
    (Orderly.discipline.run f (source.attach surroundings f.view) (noteCall (.attached f.id) s).2)
  have attached := law.onward attaching holds
  simp only [LayerTags.run, Session.bind_apply]
  rcases found : f.run (source.attach surroundings f.view) (noteCall (.attached f.id) s).2 with
    ⟨panic | e | methods, after⟩
  all_goals rw [found] at attached
  · exact attached
  · exact attached
  · exact law.tags methods l.tags attached

variable {p : Pass}

/-- Running one derivation of a pass keeps the property. -/
theorem derive (before : List String) {d : Derivation} (admitted : law.Admits d)
    (holds : law.At s f) :
    law.At (p.derive before d f s).2 (p.derive before d f s).1.2 := by
  have ran := law.derivation admitted p.layer p.surroundings holds
  unfold Pass.derive
  split
  · exact holds
  · split
    · split
      · exact holds
      · simp only [Session.bind_apply]
        split
        · exact law.forceKeys d.keys ran
        · exact ran
    · exact ran

/-- Running derivations of a pass keeps the property. -/
theorem deriveAll (before : List String) {ds : List Derivation}
    (admitted : ∀ d ∈ ds, law.Admits d) (changed : Bool) (holds : law.At s f) :
    law.At (p.deriveAll before ds changed f s).2 (p.deriveAll before ds changed f s).1.2 := by
  induction ds generalizing changed f s with
  | nil => exact holds
  | cons d rest ih =>
    have first := law.derive (p := p) before (admitted d List.mem_cons_self) holds
    rcases derived : p.derive before d f s with ⟨⟨panic | more, g⟩, after⟩
    all_goals rw [derived] at first
    all_goals simp only [Pass.deriveAll, Session.bind_apply, derived]
    · exact first
    · exact ih (fun e mem => admitted e (List.mem_cons_of_mem _ mem)) _ first

/-- Running the tags of a pass keeps the property. -/
theorem runTags (changed : Bool) (holds : law.At s f) :
    law.At (p.runTags changed f s).2 (p.runTags changed f s).1.2 := by
  unfold Pass.runTags
  cases p.tags with
  | none => exact holds
  | some tags =>
    have ran := law.layerTags tags p.methods p.surroundings holds
    simp only [Session.bind_apply]
    split
    · exact law.forceKeys _ ran
    · exact ran

/-- A visit keeps the property. -/
theorem visit (admitted : ∀ d ∈ p.derivations, law.Admits d) (holds : law.At s f) :
    law.At (p.visit f s).2 (p.visit f s).1.2 := by
  have first := law.deriveAll (p := p) f.properties.keys admitted false holds
  rcases derived : p.deriveAll f.properties.keys p.derivations false f s with
    ⟨⟨panic | changed, g⟩, mid⟩
  all_goals rw [derived] at first
  all_goals simp only [Pass.visit, Session.bind_apply, derived]
  · exact first
  · have second := law.runTags (p := p) changed first
    rcases tagged : p.runTags changed g mid with ⟨⟨panic | _ | _, h⟩, after⟩
    all_goals rw [tagged] at second
    · exact second
    · exact second
    · cases p.store with
      | none => exact second
      | some store => exact law.onward (Orderly.discipline.tell store h.id after) second

/-- A pass keeps the property of every feature, visited or not. -/
theorem visitAll (admitted : ∀ d ∈ p.derivations, law.Admits d) {features : List Feature}
    (holds : ∀ f ∈ features, law.At s f) :
    ∀ g ∈ (p.visitAll features s).1.2, law.At (p.visitAll features s).2 g := by
  induction features generalizing s with
  | nil => simp [Pass.visitAll]
  | cons f rest ih =>
    have first := law.visit admitted (holds f List.mem_cons_self)
    have step := Orderly.discipline.visit p f s
    rcases visited : p.visit f s with ⟨⟨panic | changed, g⟩, mid⟩
    all_goals rw [visited] at first step
    all_goals simp only [Pass.visitAll, Session.bind_apply, visited]
    all_goals have others : ∀ g ∈ rest, law.At mid g := fun g mem =>
      law.onward step (holds g (List.mem_cons_of_mem _ mem))
    · intro h mem
      rcases List.mem_cons.mp mem with rfl | mem
      · exact first
      · exact others h mem
    · intro h mem
      rcases List.mem_cons.mp mem with rfl | mem
      · exact law.onward (Orderly.discipline.visitAll p rest mid) first
      · exact ih others h mem

/-- A run keeps the property of every feature of its batch, also where a panic ends it. -/
theorem run {t : Tagger} (admitted : ∀ d ∈ t.registry, law.Admits d) {features : List Feature}
    (surroundings : Surroundings) (layer : Layer) (store : Option Store) (options : Options)
    (holds : ∀ f ∈ features, law.At s f) :
    ∀ g ∈ (t.run features surroundings layer store options s).1.features,
      law.At (t.run features surroundings layer store options s).2 g := by
  unfold Tagger.run
  split
  · exact holds
  · have step := Orderly.discipline.prepare t.compiler layer s
    simp only [Session.bind_apply]
    rcases prepared : t.compiler.prepare layer s with ⟨⟨panic | tags, compiler⟩, mid⟩
    all_goals rw [prepared] at step
    all_goals have later : ∀ f ∈ features, law.At mid f := fun f mem =>
      law.onward step (holds f mem)
    · exact later
    · exact law.visitAll (fun d mem => admitted d (List.mem_filter.mp mem).1) later

end Upkeep

/-- Deferred properties keep having numbers that were given out. -/
def Upkeep.issued : Upkeep where
  holds given f := ∀ key d, f.properties.slot? key = some (.deferred d) → d.id < given
  allows _ := True
  mono le issued key d slot := Nat.lt_of_lt_of_le (issued key d slot) le
  put key v issued other d slot := by
    rw [Feature.set, Feature.withProperties, Properties.slot?_set] at slot
    split at slot
    · cases slot
    · exact issued other d slot
  remove key issued other d slot := by
    rw [Feature.erase, Feature.withProperties, Properties.slot?_erase] at slot
    split at slot
    · cases slot
    · exact issued other d slot
  leave key lower _ issued other d slot := by
    rw [Feature.set, Feature.withProperties, Properties.slot?_set] at slot
    split at slot
    · obtain rfl := Slot.deferred.inj (Option.some.inj slot)
      exact lower
    · exact issued other d slot
  later _ _ := trivial

/-- A run keeps the numbers of deferred properties among those given out, so that this
is so of all features that runs lead to from features without deferred properties. -/
theorem Tagger.run_issued (t : Tagger) {features : List Feature} (surroundings : Surroundings)
    (layer : Layer) (store : Option Store) (options : Options) {s : Session}
    (issued : ∀ f ∈ features, f.Issued s) :
    ∀ g ∈ (t.run features surroundings layer store options s).1.features,
      g.Issued (t.run features surroundings layer store options s).2 := by
  refine Upkeep.issued.run (fun d _ layer surroundings moment f s e _ => ?_) surroundings layer
    store options issued
  cases e <;> exact trivial

end DerivedTags
