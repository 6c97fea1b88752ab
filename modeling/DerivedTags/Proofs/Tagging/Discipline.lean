import DerivedTags.Proofs.Journal.Limits
import DerivedTags.Tagging.Tagger

/-!
# Disciplines

A discipline is a property that computations in a session keep in sequence, and that
the few steps which touch the session have. Whatever derivations, snippets and
deferred properties do, and whether they end in an error or a panic: reads, forcing,
derivations, tags and whole runs are made of these steps, so that every discipline
holds of all of them.
-/

namespace DerivedTags

/-- A property of computations that goes from steps to whole runs. -/
structure Discipline where
  /-- The property. -/
  holds : {α : Type} → StateM Session α → Prop
  /-- It holds of a mere result. -/
  pure : ∀ {α : Type} (a : α), holds (Pure.pure a : StateM Session α)
  /-- It holds of a sequence whose parts have it. -/
  bind : ∀ {α β : Type} {x : StateM Session α} {f : α → StateM Session β},
    holds x → (∀ a, holds (f a)) → holds (x >>= f)
  /-- It holds of letting an event be known. -/
  addEvent : ∀ e : Event, holds (modify (·.addEvent e) : StateM Session Unit)
  /-- It holds of writing into the log, failed tags apart, which are events. -/
  writeLine : ∀ line, line.isAboutTags = false → holds (writeLine line)
  /-- It holds of reading the clock. -/
  tick : holds tick
  /-- It holds of taking a number. -/
  newDeferred : holds newDeferred
  /-- It holds of computing a deferred property if it holds of the computation. -/
  evaluate : ∀ {answer : String → StateM Session Answer} {view : View} {d : Deferred},
    holds ((d.compute view).run answer) → holds (d.evaluate answer view)

namespace Discipline

variable (law : Discipline)

/-- Noting a call lets it be known. -/
theorem noteCall (c : Call) : law.holds (noteCall c) := law.addEvent (.call c)

/-- A computation keeps a discipline if all its questions are answered so. -/
theorem reading {α : Type} {answer : String → StateM Session Answer}
    (answers : ∀ key, law.holds (answer key)) (r : Reading α) : law.holds (r.run answer) := by
  induction r with
  | done a => exact law.pure a
  | ask key next ih => exact law.bind (answers key) ih
  | tell e next ih => exact law.bind (law.addEvent e) fun _ => ih

/-- Reading a property keeps a discipline, however deep computations may nest. -/
theorem getWithin (f : Feature) (depth : Nat) (key : String) :
    law.holds (f.getWithin depth key) := by
  induction depth generalizing key with
  | zero => exact law.pure _
  | succ depth ih =>
    unfold Feature.getWithin
    split
    · exact law.pure _
    · exact law.pure _
    · exact law.evaluate (law.reading ih _)

/-- Reading a property keeps a discipline. -/
theorem get (f : Feature) (key : String) : law.holds (f.get key) := law.getWithin f _ key

/-- Running a computation over a feature keeps a discipline. -/
theorem run {α : Type} (f : Feature) (r : Reading α) : law.holds (f.run r) :=
  law.reading (law.get f) r

/-- Forcing a property keeps a discipline. -/
theorem force (f : Feature) (key : String) : law.holds (f.force key) := by
  unfold Feature.force
  split
  · exact law.pure _
  · exact law.pure _
  · refine law.bind (law.get f key) fun a => ?_
    split <;> exact law.pure _

/-- Forcing keys keeps a discipline. -/
theorem forceKeys (keys : List String) (f : Feature) : law.holds (f.forceKeys keys) := by
  induction keys generalizing f with
  | nil => exact law.pure _
  | cons key rest ih =>
    refine law.bind (law.force f key) fun forced => ?_
    obtain ⟨a, g⟩ := forced
    cases a with
    | ok v => exact ih g
    | error p => exact law.pure _

/-- Carrying out an edit keeps a discipline. -/
theorem edit (e : Edit) (f : Feature) : law.holds (e.apply f) := by
  cases e with
  | insert key value => exact law.pure _
  | defer key compute => exact law.bind law.newDeferred fun id => law.pure _
  | remove key => exact law.pure _

/-- Carrying out edits keeps a discipline. -/
theorem edits (edits : List Edit) (f : Feature) : law.holds (Edit.applyAll edits f) := by
  induction edits generalizing f with
  | nil => exact law.pure _
  | cons e rest ih => exact law.bind (law.edit e f) ih

/-- Running a derivation keeps a discipline, whatever becomes of it. -/
theorem derivation (d : Derivation) (layer : Layer) (surroundings : Surroundings)
    (f : Feature) : law.holds (d.runContained layer surroundings f) := by
  have bare : law.holds (d.run layer surroundings f) :=
    law.bind law.tick fun reading => law.bind (law.run f _) fun proposal =>
      law.bind (law.edits proposal.edits f) fun g => law.pure _
  refine law.bind bare fun ended => ?_
  obtain ⟨verdict, g⟩ := ended
  rcases verdict with p | e | changed
  · exact law.bind (law.writeLine _ rfl) fun _ => law.pure _
  · exact law.bind (law.writeLine _ rfl) fun _ => law.pure _
  · exact law.pure _

/-- Running a tag keeps a discipline. -/
theorem tag (t : CalculatedTag) (methods : FeatureMethods) (f : Feature) :
    law.holds (t.run methods f) := by
  unfold CalculatedTag.run
  split
  · exact law.bind (law.run f _) fun tag => law.pure _
  · exact law.bind law.newDeferred fun id => law.pure _

/-- Running tags one after the other keeps a discipline. -/
theorem tags (methods : FeatureMethods) (tags : List CalculatedTag) (f : Feature) :
    law.holds (LayerTags.runAll methods tags f) := by
  induction tags generalizing f with
  | nil => exact law.pure _
  | cons t rest ih => exact law.bind (law.tag t methods f) ih

/-- Running the tags of a layer keeps a discipline, whatever becomes of the methods. -/
theorem layerTags (l : LayerTags) (source : MethodSource) (surroundings : Surroundings)
    (f : Feature) : law.holds (l.run source surroundings f) := by
  refine law.bind (law.noteCall _) fun _ => law.bind (law.run f _) fun attached => ?_
  rcases attached with p | e | methods
  · exact law.bind (law.writeLine _ rfl) fun _ => law.pure _
  · exact law.bind (law.writeLine _ rfl) fun _ => law.pure _
  · exact law.tags methods l.tags f

/-- Preparing the tags of a layer keeps a discipline. -/
theorem prepare (c : TagCompiler) (layer : Layer) : law.holds (c.prepare layer) := by
  have compiling : law.holds (c.compile layer.id layer.calculatedTags) := by
    unfold TagCompiler.compile
    split
    · exact law.bind (law.writeLine _ rfl) fun _ => law.pure _
    · exact law.pure _
  unfold TagCompiler.prepare
  split
  · exact law.pure _
  · split
    · exact law.pure _
    · refine law.bind compiling fun compiled => ?_
      obtain ⟨result, counted⟩ := compiled
      cases result with
      | ok tags => exact law.pure _
      | error p => exact law.pure _

variable (p : Pass)

/-- Running one derivation of a pass keeps a discipline. -/
theorem derive (before : List String) (d : Derivation) (f : Feature) :
    law.holds (p.derive before d f) := by
  have running := law.derivation d p.layer p.surroundings f
  unfold Pass.derive
  split
  · exact law.pure _
  · split
    · split
      · exact law.pure _
      · refine law.bind running fun ran => ?_
        dsimp only
        split
        · exact law.bind (law.forceKeys d.keys _) fun forced => law.pure _
        · exact law.pure _
    · exact law.bind running fun ran => law.pure _

/-- Running the derivations of a pass keeps a discipline. -/
theorem deriveAll (before : List String) (ds : List Derivation) (changed : Bool)
    (f : Feature) : law.holds (p.deriveAll before ds changed f) := by
  induction ds generalizing changed f with
  | nil => exact law.pure _
  | cons d rest ih =>
    refine law.bind (law.derive p before d f) fun derived => ?_
    obtain ⟨result, g⟩ := derived
    cases result with
    | ok more => exact ih _ g
    | error panic => exact law.pure _

/-- Running the tags of a pass keeps a discipline. -/
theorem runTags (changed : Bool) (f : Feature) : law.holds (p.runTags changed f) := by
  unfold Pass.runTags
  split
  · exact law.pure _
  · refine law.bind (law.layerTags _ _ _ f) fun g => ?_
    split
    · exact law.bind (law.forceKeys _ g) fun forced => law.pure _
    · exact law.pure _

/-- Telling a store keeps a discipline. -/
theorem tell (store : Store) (id : String) : law.holds (Pass.tell store id) := by
  refine law.bind (law.noteCall _) fun _ => ?_
  split
  · exact law.pure _
  · exact law.writeLine _ rfl
  · exact law.writeLine _ rfl

/-- Visiting a feature keeps a discipline. -/
theorem visit (f : Feature) : law.holds (p.visit f) := by
  refine law.bind (law.deriveAll p _ _ _ f) fun derived => ?_
  obtain ⟨result, g⟩ := derived
  cases result with
  | error panic => exact law.pure _
  | ok changed =>
    refine law.bind (law.runTags p changed g) fun tagged => ?_
    dsimp only
    split
    · exact law.bind (law.tell _ _) fun _ => law.pure _
    · exact law.pure _

/-- Visiting features one after the other keeps a discipline. -/
theorem visitAll (features : List Feature) : law.holds (p.visitAll features) := by
  induction features with
  | nil => exact law.pure _
  | cons f rest ih =>
    refine law.bind (law.visit p f) fun visited => ?_
    obtain ⟨result, g⟩ := visited
    cases result with
    | error panic => exact law.pure _
    | ok changed => exact law.bind ih fun others => law.pure _

/-- A whole run keeps a discipline, also where a panic ends it. -/
theorem tagger (t : Tagger) (features : List Feature) (surroundings : Surroundings)
    (layer : Layer) (store : Option Store) (options : Options) :
    law.holds (t.run features surroundings layer store options) := by
  unfold Tagger.run
  split
  · exact law.pure _
  · refine law.bind (law.prepare t.compiler layer) fun prepared => ?_
    obtain ⟨result, compiler⟩ := prepared
    cases result with
    | error panic => exact law.pure _
    | ok tags => exact law.bind (law.visitAll _ features) fun visited => law.pure _

end Discipline

end DerivedTags
