import DerivedTags.Proofs.Feature.Forcing
import DerivedTags.Tagging.Pass

/-!
# What reads no clock

Reading properties lets events be known and marks what is under computation. All else of a
session stays as it is: no number is taken, and the clock is not read. Derivations alone read
the clock. Reads, forcing, calculated tags and the telling of a store do not, whatever becomes
of them.
-/

namespace DerivedTags

/-- The computation leaves something of a session as it is. -/
def Leaves {α β : Type} (part : Session → β) (x : StateM Session α) : Prop :=
  ∀ s : Session, part (x s).2 = part s

/-- Neither events nor what is under computation shows in this part of a session. -/
structure Session.Inert {β : Type} (part : Session → β) : Prop where
  /-- Events do not show. -/
  addEvent : ∀ s e, part (s.addEvent e) = part s
  /-- That a property is entered does not show. -/
  enter : ∀ s id, part (s.enter id) = part s
  /-- That a property is left does not show. -/
  leave : ∀ s id, part (s.leave id) = part s

namespace Session.Inert

variable {α β : Type} {part : Session → β}

/-- The clock shows neither. -/
theorem ticks : Inert Session.ticks where
  addEvent _ e := by cases e <;> rfl
  enter _ _ := rfl
  leave _ _ := rfl

/-- The numbers show neither. -/
theorem nextDeferred : Inert Session.nextDeferred where
  addEvent _ e := by cases e <;> rfl
  enter _ _ := rfl
  leave _ _ := rfl

/-- A computation over a feature leaves such a part as it is if every answer does. -/
theorem reading (inert : Inert part) {answer : String → StateM Session Answer}
    (answers : ∀ key, Leaves part (answer key)) (r : Reading α) : Leaves part (r.run answer) := by
  induction r with
  | done a => exact fun _ => rfl
  | ask key next ih => exact fun s => (ih _ _).trans (answers key s)
  | tell e next ih => exact fun s => (ih _).trans (inert.addEvent s e)

/-- Computing a deferred property leaves such a part as it is if its computation does. -/
theorem evaluate (inert : Inert part) {answer : String → StateM Session Answer} {view : View}
    {d : Deferred} (computing : Leaves part ((d.compute view).run answer)) :
    Leaves part (d.evaluate answer view) := by
  intro s
  rw [Deferred.evaluate_apply]
  split
  · rfl
  · exact (inert.leave _ d.id).trans ((computing _).trans (inert.enter s d.id))

/-- Reading a property leaves such a part as it is, however deep computations nest. -/
theorem getWithin (inert : Inert part) (f : Feature) (depth : Nat) (key : String) :
    Leaves part (f.getWithin depth key) := by
  induction depth generalizing key with
  | zero => exact fun _ => rfl
  | succ depth ih =>
    unfold Feature.getWithin
    split
    · exact fun _ => rfl
    · exact fun _ => rfl
    · exact inert.evaluate (inert.reading ih _)

/-- Running a computation over a feature leaves such a part as it is. -/
theorem run (inert : Inert part) (f : Feature) (r : Reading α) : Leaves part (f.run r) :=
  inert.reading (inert.getWithin f _) r

end Session.Inert

/-- The computation does not read the clock. -/
def Timeless {α : Type} (x : StateM Session α) : Prop := Leaves Session.ticks x

namespace Timeless

variable {α β : Type}

/-- A mere result reads no clock. -/
theorem pure (a : α) : Timeless (Pure.pure a : StateM Session α) := fun _ => rfl

/-- Neither do computations in sequence that do not read it. -/
theorem bind {x : StateM Session α} {f : α → StateM Session β} (first : Timeless x)
    (onward : ∀ a, Timeless (f a)) : Timeless (x >>= f) :=
  fun s => (onward (x s).1 (x s).2).trans (first s)

/-- Letting an event be known reads no clock. -/
theorem addEvent (e : Event) : Timeless (modify (·.addEvent e)) :=
  fun s => Session.Inert.ticks.addEvent s e

/-- Writing into the log reads no clock. -/
theorem writeLine (line : LogLine) : Timeless (writeLine line) := fun _ => rfl

/-- Taking a number reads no clock. -/
theorem newDeferred : Timeless newDeferred := fun _ => rfl

/-- Running a computation over a feature reads no clock. -/
theorem run (f : Feature) (r : Reading α) : Timeless (f.run r) := Session.Inert.ticks.run f r

/-- Forcing a property reads no clock. -/
theorem force (f : Feature) (key : String) : Timeless (f.force key) := by
  unfold Feature.force
  split
  · exact .pure _
  · exact .pure _
  · refine Timeless.bind (Session.Inert.ticks.getWithin f _ key) fun a => ?_
    split <;> exact .pure _

/-- Forcing keys reads no clock. -/
theorem forceKeys (keys : List String) (f : Feature) : Timeless (f.forceKeys keys) := by
  induction keys generalizing f with
  | nil => exact .pure _
  | cons key rest ih =>
    refine (force f key).bind fun forced => ?_
    obtain ⟨a, g⟩ := forced
    cases a with
    | ok v => exact ih g
    | error panic => exact .pure _

/-- Calculated tags read no clock. -/
theorem tags (methods : FeatureMethods) (tags : List CalculatedTag) (f : Feature) :
    Timeless (LayerTags.runAll methods tags f) := by
  induction tags generalizing f with
  | nil => exact .pure _
  | cons t rest ih =>
    refine bind ?_ ih
    unfold CalculatedTag.run
    split
    · exact (run f _).bind fun tag => .pure _
    · exact newDeferred.bind fun id => .pure _

/-- The tags of a layer read no clock, whatever becomes of the methods. -/
theorem layerTags (l : LayerTags) (source : MethodSource) (surroundings : Surroundings)
    (f : Feature) : Timeless (l.run source surroundings f) := by
  refine (addEvent (.call (.attached f.id))).bind fun _ => (run f _).bind fun attached => ?_
  rcases attached with panic | e | methods
  · exact (writeLine _).bind fun _ => .pure _
  · exact (writeLine _).bind fun _ => .pure _
  · exact tags methods l.tags f

/-- The tags of a pass read no clock, forced or not. -/
theorem runTags (p : Pass) (changed : Bool) (f : Feature) : Timeless (p.runTags changed f) := by
  unfold Pass.runTags
  split
  · exact .pure _
  · refine (layerTags _ _ _ f).bind fun g => ?_
    split
    · exact (forceKeys _ g).bind fun forced => .pure _
    · exact .pure _

/-- Telling a store reads no clock. -/
theorem tell (store : Store) (id : String) : Timeless (Pass.tell store id) := by
  refine (addEvent (.call (.pinged id))).bind fun _ => ?_
  split
  · exact .pure _
  · exact writeLine _
  · exact writeLine _

end Timeless

end DerivedTags
