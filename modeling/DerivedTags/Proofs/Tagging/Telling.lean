import DerivedTags.Proofs.Tagging.Changes
import DerivedTags.Proofs.Tagging.Runs
import DerivedTags.Proofs.Tagging.Upkeep
import DerivedTags.Proofs.Tagging.Visits

/-!
# Whom a store is told of

A run that returns visits the features of its batch in order. Each visit tells the
store, if there is one, at most once and at its end: of the feature it has visited, and
exactly if the visit counts as a change. No change goes untold, and where computations
may stay deferred and the layer has no tags, nothing is told without one.
-/

namespace DerivedTags

open DerivedTags.Standard

/-- The record of a visit. -/
structure Visit where
  /-- The feature as the visit met it. -/
  before : Feature
  /-- The feature as the visit left it. -/
  after : Feature
  /-- Whether the visit counts as a change. -/
  changed : Bool
  /-- What the visit calls besides a store. -/
  calls : List Call

/-- All that a visit calls: the store comes last, and only after a change. -/
def Visit.allCalls (v : Visit) (store : Option Store) : List Call :=
  v.calls ++ if v.changed && store.isSome then [.pinged v.before.id] else []

/-- The features keep their ids. -/
def Upkeep.sameId (id : String) : Upkeep where
  holds _ f := f.id = id
  allows _ := True
  mono _ same := same
  put _ _ same := same
  remove _ same := same
  leave _ _ _ same := same
  later _ _ := trivial

/-- Every derivation leaves the ids alone. -/
theorem Upkeep.admits_sameId (id : String) (d : Derivation) : (Upkeep.sameId id).Admits d := by
  intro layer surroundings moment f s e mem
  cases e <;> exact trivial

namespace Pass

/-- What the record of a visit says is true of the features. -/
structure Records (p : Pass) (v : Visit) : Prop where
  /-- The feature keeps its id. -/
  id : v.after.id = v.before.id
  /-- Without a change the feature stays exactly as it was. -/
  untold : v.changed = false → v.after = v.before
  /-- Where computations may stay deferred and there are no tags, a change is one of some
  property. -/
  told : p.tags = none → p.evaluateStrict = false → v.changed = true →
    ∃ key, v.after.properties.slot? key ≠ v.before.properties.slot? key

variable {p : Pass} {f g : Feature} {s : Session} {changed : Bool}

/-- A visit that does not count as a change leaves the feature alone. -/
theorem eq_of_visit_unchanged (std : ∀ d ∈ p.derivations, d ∈ all)
    (unchanged : (p.visit f s).1 = (.ok false, g)) : g = f := by
  obtain ⟨some, h, mid, derived, tagged⟩ := of_visit unchanged
  obtain ⟨rfl, rfl⟩ := eq_of_runTags_unchanged tagged
  exact (eq_of_deriveAll_unchanged std (congrArg Prod.fst derived)).2

/-- Where computations may stay deferred and there are no tags, a visit that counts as a
change gains a key. -/
theorem gains_of_visit (plain : p.tags = none) (lenient : p.evaluateStrict = false)
    (std : ∀ d ∈ p.derivations, d ∈ all) (visited : (p.visit f s).1 = (.ok changed, g)) :
    Feature.Gains changed f g := by
  obtain ⟨more, h, mid, derived, gains⟩ :=
    deriveAll_gains lenient std f.properties.keys false f s
  obtain ⟨after, same, -⟩ := visit_of_deriveAll plain derived
  rw [same] at visited
  obtain ⟨counted, rfl⟩ := Prod.mk.inj visited
  rw [← Except.ok.inj counted, Bool.false_or]
  exact gains

/-- A visit that returns is recorded truly. -/
theorem records_visit (std : ∀ d ∈ p.derivations, d ∈ all)
    (visited : (p.visit f s).1 = (.ok changed, g)) (calls : List Call) :
    p.Records ⟨f, g, changed, calls⟩ where
  id := by
    have kept : (p.visit f s).1.2.id = f.id :=
      (Upkeep.sameId f.id).visit (fun d _ => Upkeep.admits_sameId f.id d) rfl
    rwa [visited] at kept
  untold := by
    rintro rfl
    exact eq_of_visit_unchanged std visited
  told := by
    rintro plain lenient rfl
    exact (gains_of_visit plain lenient std visited).slot?_ne

/-- With any store, and whatever was called and logged before, a visit gives the same and
calls what its record says. -/
theorem visit_account (std : ∀ d ∈ p.derivations, d ∈ all)
    (visited : (p.visit f s).1 = (.ok changed, g)) :
    ∃ calls, ∀ store t, t.forget = s.forget →
      let told := (p.withStore store).visit f t
      told.1 = (.ok changed, g) ∧ told.2.forget = (p.visit f s).2.forget ∧
        told.2.calls = t.calls ++ (⟨f, g, changed, calls⟩ : Visit).allCalls store := by
  have quiet : Heedless ((p.withStore none).visit f) := Heedless.discipline.visit _ f
  have here : p.visit f s = _ := p.visit_apply p.store f s
  have unheard : ((p.withStore none).visit f s).1 = (.ok changed, g) := by
    rw [← visited, here]
  have id : g.id = f.id := (records_visit std visited []).id
  refine ⟨((p.withStore none).visit f s.forget).2.calls, fun store t same => ?_⟩
  have given : ((p.withStore none).visit f t).1 = (.ok changed, g) := by
    rw [quiet.fst_eq same, unheard]
  rw [p.visit_apply store f t, given]
  refine ⟨rfl, ?_, ?_⟩
  · rw [here, forget_afterTelling, forget_afterTelling, quiet.forget_eq same]
  · simp only [calls_afterTelling, quiet.calls_eq t, same, Visit.allCalls, id, List.append_assoc]

/-- A pass that returns goes by records of its visits, whatever store it tells. -/
theorem visitAll_account (std : ∀ d ∈ p.derivations, d ∈ all) {features : List Feature}
    (returns : (p.visitAll features s).1.1 = .ok changed) :
    ∃ visits : List Visit, visits.map Visit.before = features ∧ (∀ v ∈ visits, p.Records v) ∧
      ∀ store t, t.forget = s.forget →
        let told := (p.withStore store).visitAll features t
        told.1 = (.ok (visits.any Visit.changed), visits.map Visit.after) ∧
          told.2.calls = t.calls ++ visits.flatMap (Visit.allCalls · store) := by
  induction features generalizing s changed with
  | nil => exact ⟨[], rfl, by simp, fun store t _ => ⟨rfl, by simp [visitAll]⟩⟩
  | cons f rest ih =>
    rcases visited : p.visit f s with ⟨⟨panic | first, g⟩, mid⟩
    all_goals simp only [visitAll, Session.bind_apply, visited] at returns
    · simp at returns
    have recorded := congrArg Prod.fst visited
    obtain ⟨calls, account⟩ := visit_account std recorded
    cases others : (p.visitAll rest mid).1.1 with
    | error panic => simp [others, Except.map] at returns
    | ok more =>
      obtain ⟨visits, before, records, accounts⟩ := ih others
      refine ⟨⟨f, g, first, calls⟩ :: visits, by simp [before], ?_, fun store t same => ?_⟩
      · intro v mem
        rcases List.mem_cons.mp mem with rfl | mem
        · exact records_visit std recorded calls
        · exact records v mem
      · obtain ⟨result, onward, called⟩ := account store t same
        rw [visited] at onward
        obtain ⟨results, calledAll⟩ := accounts store _ onward
        simp only [visitAll, Session.bind_apply, result, results]
        refine ⟨rfl, ?_⟩
        simp only [Session.pure_apply, calledAll, called, List.flatMap_cons, List.append_assoc]

end Pass

/-- Preparing the tags of a layer calls nobody. -/
theorem TagCompiler.calls_prepare (c : TagCompiler) (layer : Layer) (s : Session) :
    (c.prepare layer s).2.calls = s.calls := by
  obtain ⟨answer, compiler, lines, -, applied⟩ := c.exists_preparation layer
  rw [applied]
  rfl

namespace Tagger

/-- A run of standard derivations and calculated tags that returns goes by records of its
visits, one for each feature of the batch in order. With the same records it returns
with any store and with none, whether the store is content, fails or panics: it says
whether some visit counts as a change, and each such visit, and no other, tells the
store once, of its feature, after all else that it calls. A visit that tells nothing
has left its feature exactly as it was. Conversely, where the layer has no calculated
tags and computations may stay deferred, a visit that tells has changed a property. -/
theorem run_tells {t : Tagger} (standard : ∀ d ∈ t.registry, d ∈ Standard.all)
    {features : List Feature} {surroundings : Surroundings} {layer : Layer}
    {anyStore : Option Store} {options : Options} {s : Session}
    (returns : ∃ changed,
      (t.run features surroundings layer anyStore options s).1.result = .ok changed) :
    ∃ visits : List Visit, visits.map Visit.before = features ∧
      (∀ store,
        let run := t.run features surroundings layer store options s
        run.1.result = .ok (visits.any Visit.changed) ∧
          run.1.features = visits.map Visit.after ∧
          run.2.calls = s.calls ++ visits.flatMap (Visit.allCalls · store)) ∧
      ∀ v ∈ visits, v.after.id = v.before.id ∧ (v.changed = false → v.after = v.before) ∧
        (layer.calculatedTags = [] → options.evaluateStrict = false → v.changed = true →
          ∃ key, v.after.properties.slot? key ≠ v.before.properties.slot? key) := by
  obtain ⟨changed, returned⟩ := returns
  by_cases empty : features = []
  · subst empty
    exact ⟨[], rfl, fun store => ⟨rfl, rfl, by simp [run_nil]⟩, by simp⟩
  have quiet := t.compiler.calls_prepare layer s
  rcases prepared : t.compiler.prepare layer s with ⟨⟨panic | tags, compiler⟩, mid⟩
  all_goals rw [prepared] at quiet
  · simp [run, List.isEmpty_iff, empty, prepared] at returned
  let p := t.pass tags surroundings layer none options
  have std : ∀ d ∈ p.derivations, d ∈ Standard.all := fun d mem =>
    standard d (List.mem_filter.mp mem).1
  have running (store : Option Store) :
      t.run features surroundings layer store options s =
        (⟨((p.withStore store).visitAll features mid).1.1, { t with compiler },
            ((p.withStore store).visitAll features mid).1.2⟩,
          ((p.withStore store).visitAll features mid).2) :=
    t.run_of_prepare surroundings layer store options s empty prepared rfl
  rw [running anyStore] at returned
  obtain ⟨visits, before, records, accounts⟩ :=
    Pass.visitAll_account (p := p.withStore anyStore) std returned
  refine ⟨visits, before, fun store => ?_, fun v mem => ?_⟩
  · obtain ⟨given, called⟩ := accounts store mid rfl
    have same : (p.withStore anyStore).withStore store = p.withStore store := rfl
    rw [same] at given called
    rw [running store, given]
    exact ⟨rfl, rfl, by rw [called, quiet]⟩
  · obtain ⟨id, untold, told⟩ := records v mem
    refine ⟨id, untold, fun plain => told ?_⟩
    rw [t.compiler.prepare_plain plain s] at prepared
    cases prepared
    rfl

/-- A batch of two features, of which the first one lacks the key of its layer. -/
def halfLabelled : List Feature :=
  [⟨"node/1", none, .empty⟩,
    ⟨"node/2", none, { entries := [("_layer", .concrete (.str "shops"))] }⟩]

/-- A store that panics whatever it is told. -/
def brokenStore : Store := ⟨fun _ => .error (.ofText "store down")⟩

/-- The run that writes the layer to this batch. -/
def labelling (store : Option Store) : Outcome × Session :=
  (start [Standard.layer]).run halfLabelled .detached (.named "shops") store .default (.start 10)

/-- Of two features only the one that gets its layer is told of, and a store that panics
does not keep the run from counting it as a change. -/
theorem run_tells_layer :
    ((∀ d ∈ (start [Standard.layer]).registry, d ∈ Standard.all) ∧
        ∃ changed, (labelling none).1.result = .ok changed) ∧
      (∃ visits : List Visit, visits.map Visit.before = halfLabelled ∧
        (labelling (some brokenStore)).1.result = .ok (visits.any Visit.changed)) ∧
      (labelling (some brokenStore)).1.result = .ok true ∧
      (labelling (some brokenStore)).2.calls = [.pinged "node/1"] := by
  have standard : ∀ d ∈ (start [Standard.layer]).registry, d ∈ Standard.all :=
    Standard.mem_all_of_places [1]
  have returns : ∃ changed, (labelling none).1.result = .ok changed := ⟨true, rfl⟩
  obtain ⟨visits, before, account, -⟩ := run_tells standard returns
  exact ⟨⟨standard, returns⟩, ⟨visits, before, (account (some brokenStore)).1⟩, rfl, rfl⟩

end Tagger

end DerivedTags
