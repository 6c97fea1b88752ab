import DerivedTags.Proofs.Feature.Forcing
import DerivedTags.Proofs.Tagging.Discipline

/-!
# An engine in use

Whoever owns an engine runs passes over the features, hands it batches, reads and forces
what passes left deferred, edits features and replaces methods and functions, in any order.
Every discipline goes from steps to such uses. One of them is that the limit on logged
failures concerns what the log says of failed tags and nothing else.
-/

namespace DerivedTags

open DerivedTags.Snippet (FunctionTable Panic)

/-- A tagger and the features that it is used on. -/
structure Engine where
  /-- The tagger. -/
  tagger : Tagger
  /-- The features. -/
  features : List Feature

/-- One use of an engine. -/
inductive Operation where
  /-- A pass over some of the features that stand behind one another. -/
  | run (skipped count : Nat) (surroundings : Surroundings) (layer : Layer)
    (store : Option Store) (options : Options)
  /-- The same as a batch that has come to rest. -/
  | takeBatch (skipped count : Nat) (layer : Layer) (surroundings : Surroundings)
    (store : Option Store)
  /-- Read a property of the feature at a place. -/
  | read (place : Nat) (key : String)
  /-- Force a property of the feature at a place. -/
  | force (place : Nat) (key : String)
  /-- Force all deferred properties of the feature at a place. -/
  | forceAll (place : Nat)
  /-- Edit the feature at a place. -/
  | edit (place : Nat) (edits : List Edit)
  /-- Replace the source of methods. -/
  | withMethods (methods : MethodSource)
  /-- Replace the functions, which drops what was compiled. -/
  | withFunctions (functions : FunctionTable)

/-- What the owner of an engine gets back. -/
inductive Reply where
  /-- Whether a pass changed a feature, or the panic that ended it. -/
  | passed (result : Except Panic Bool)
  /-- The answer to a read. -/
  | answered (answer : Answer)
  /-- What became of forcing all deferred properties. -/
  | forced (result : Except Panic Unit)
  /-- Nothing. -/
  | done

namespace Engine

/-- A pass over some of the features. -/
def passOver (e : Engine) (skipped count : Nat)
    (pass : List Feature → StateM Session Tagger.Outcome) : StateM Session (Reply × Engine) := do
  let outcome ← pass ((e.features.drop skipped).take count)
  let others := e.features.drop (skipped + count)
  pure (.passed outcome.result,
    ⟨outcome.tagger, e.features.take skipped ++ outcome.features ++ others⟩)

/-- What is done with the feature at a place. Without one nothing is done. -/
def onFeature (e : Engine) (place : Nat)
    (act : Feature → StateM Session (Reply × Feature)) : StateM Session (Reply × Engine) :=
  match e.features[place]? with
  | none => pure (.done, e)
  | some f => do
    let (reply, g) ← act f
    pure (reply, { e with features := e.features.set place g })

/-- Use the engine once. -/
def use (e : Engine) : Operation → StateM Session (Reply × Engine)
  | .run skipped count surroundings layer store options =>
    e.passOver skipped count fun batch => e.tagger.run batch surroundings layer store options
  | .takeBatch skipped count layer surroundings store =>
    e.passOver skipped count fun batch => e.tagger.takeBatch layer batch surroundings store
  | .read place key => e.onFeature place fun f => do
    let a ← f.get key
    pure (.answered a, f)
  | .force place key => e.onFeature place fun f => do
    let (a, g) ← f.force key
    pure (.answered a, g)
  | .forceAll place => e.onFeature place fun f => do
    let (result, g) ← f.forceAll
    pure (.forced result, g)
  | .edit place edits => e.onFeature place fun f => do
    let g ← Edit.applyAll edits f
    pure (.done, g)
  | .withMethods methods => pure (.done, { e with tagger := e.tagger.withMethods methods })
  | .withFunctions functions =>
    pure (.done, { e with tagger := e.tagger.withFunctions functions })

/-- Use the engine again and again. -/
def useAll : List Operation → Engine → StateM Session (List Reply × Engine)
  | [], e => pure ([], e)
  | operation :: rest, e => do
    let (reply, next) ← e.use operation
    let (replies, last) ← useAll rest next
    pure (reply :: replies, last)

end Engine

namespace Discipline

variable (law : Discipline)

/-- Taking a batch keeps a discipline. -/
theorem takeBatch (t : Tagger) (layer : Layer) (features : List Feature)
    (surroundings : Surroundings) (store : Option Store) :
    law.holds (t.takeBatch layer features surroundings store) := by
  unfold Tagger.takeBatch
  split
  · exact law.pure _
  · exact law.bind (law.writeLine _ rfl) fun _ => law.tagger t features surroundings layer store _

/-- A pass over some of the features keeps a discipline. -/
theorem passOver (e : Engine) (skipped count : Nat)
    {pass : List Feature → StateM Session Tagger.Outcome}
    (passes : ∀ batch, law.holds (pass batch)) : law.holds (e.passOver skipped count pass) :=
  law.bind (passes _) fun _ => law.pure _

/-- What is done with a feature keeps a discipline. -/
theorem onFeature (e : Engine) (place : Nat)
    {act : Feature → StateM Session (Reply × Feature)} (acts : ∀ f, law.holds (act f)) :
    law.holds (e.onFeature place act) := by
  unfold Engine.onFeature
  split
  · exact law.pure _
  · exact law.bind (acts _) fun _ => law.pure _

/-- Using an engine keeps a discipline. -/
theorem use (e : Engine) (operation : Operation) : law.holds (e.use operation) := by
  cases operation with
  | run skipped count surroundings layer store options =>
    exact law.passOver e skipped count fun batch =>
      law.tagger e.tagger batch surroundings layer store options
  | takeBatch skipped count layer surroundings store =>
    exact law.passOver e skipped count fun batch =>
      law.takeBatch e.tagger layer batch surroundings store
  | read place key =>
    exact law.onFeature e place fun f => law.bind (law.get f key) fun _ => law.pure _
  | force place key =>
    exact law.onFeature e place fun f => law.bind (law.force f key) fun _ => law.pure _
  | forceAll place =>
    exact law.onFeature e place fun f => law.bind (law.forceKeys _ f) fun _ => law.pure _
  | edit place edits =>
    exact law.onFeature e place fun f => law.bind (law.edits edits f) fun _ => law.pure _
  | withMethods methods => exact law.pure _
  | withFunctions functions => exact law.pure _

/-- Using an engine again and again keeps a discipline. -/
theorem useAll (operations : List Operation) (e : Engine) :
    law.holds (Engine.useAll operations e) := by
  induction operations generalizing e with
  | nil => exact law.pure _
  | cons operation rest ih =>
    exact law.bind (law.use e operation) fun used =>
      law.bind (ih used.2) fun others => law.pure _

end Discipline

/-- A deferred property is computed alike under every limit if its computation is. -/
theorem Deferred.evaluate_indifferent {answer : String → StateM Session Answer} {view : View}
    {d : Deferred} (computing : Indifferent ((d.compute view).run answer)) :
    Indifferent (d.evaluate answer view) := by
  intro r
  by_cases running : d.id ∈ r.evaluating
  · exact ⟨.ok none, r, fun limit => (evaluate_apply answer view d _).trans (if_pos running)⟩
  · obtain ⟨a, after, ran⟩ := computing { r with evaluating := d.id :: r.evaluating }
    refine ⟨a, { after with evaluating := after.evaluating.erase d.id }, fun limit => ?_⟩
    have idle : d.id ∉ (r.session limit).evaluating := running
    have entered : (r.session limit).enter d.id =
        Record.session { r with evaluating := d.id :: r.evaluating } limit := rfl
    rw [evaluate_apply, if_neg idle, entered, ran]
    rfl

/-- Being indifferent to the limit is a discipline. -/
def Indifferent.discipline : Discipline where
  holds := Indifferent
  pure := .pure
  bind := .bind
  addEvent := .addEvent
  writeLine _ other := .writeLine other
  tick := .tick
  newDeferred := .newDeferred
  evaluate := Deferred.evaluate_indifferent

/-- The limit on logged failures never alters results. However an engine is used, all
replies, its features and its tagger with its compilations, the calls of collaborators with
the pings among them, and the lines of the log that are not about failed tags are the same
under every limit. So are the failures, of which every one is counted and as many are
reported as the limit allows. The log has the warnings of the first failures up to the limit
in order and behind them, where that many occurred under a limit above zero, one summary. -/
theorem Engine.useAll_limit (e : Engine) (operations : List Operation) :
    ∃ (outcome : List Reply × Engine) (calls : List Call) (others : List LogLine)
      (failures : List (TagFailure × String)), ∀ limit,
      (useAll operations e (.start limit)).1 = outcome ∧
        (useAll operations e (.start limit)).2.calls = calls ∧
        (useAll operations e (.start limit)).2.log.filter (fun line => !line.isAboutTags) =
          others ∧
        (useAll operations e (.start limit)).2.failures =
          ⟨limit, failures.length, min failures.length limit⟩ ∧
        (useAll operations e (.start limit)).2.log.filter LogLine.isAboutTags =
          (failures.take limit).map (fun failure => .tagFailed failure.1 failure.2) ++
            if 0 < limit ∧ limit ≤ failures.length then [.limitReached limit] else [] :=
  (Indifferent.discipline.useAll operations e).of_start

end DerivedTags
