import Mathlib.Algebra.GroupWithZero.Nat
import Mathlib.Logic.Function.Iterate
import DerivedTags.Proofs.Journal.Lockstep
import DerivedTags.Proofs.Journal.Tally
import DerivedTags.Proofs.Tagging.OrderlyRuns

/-!
# Two runs leg by leg

Two runs from one session may go different ways for a while and come together again. They are
told leg by leg: on most legs both call the same and count as many failures, and on some each
of them calls and counts what is its own. As long as else they leave the same behind, nothing
but these legs tells them apart: what both do next is another leg that they share.
-/

namespace DerivedTags

open DerivedTags.Session (SameSince Tally)

/-- The computation counts failures one by one. -/
def Counting {α : Type} (x : StateM Session α) : Prop :=
  ∀ s : Session, ∃ n, (x s).2.failures = FailureCount.count^[n] s.failures

/-- Counting failures one by one is a discipline. -/
def Counting.discipline : Discipline where
  holds := Counting
  pure _ _ := ⟨0, rfl⟩
  bind {_ _ x _} first onward s := by
    obtain ⟨n, counted⟩ := first s
    obtain ⟨more, further⟩ := onward (x s).1 (x s).2
    refine ⟨more + n, ?_⟩
    rw [Session.bind_apply, further, counted, Function.iterate_add_apply]
  addEvent e _ :=
    match e with
    | .call _ => ⟨0, rfl⟩
    | .failure .. => ⟨1, rfl⟩
  writeLine _ _ _ := ⟨0, rfl⟩
  tick _ := ⟨0, rfl⟩
  newDeferred _ := ⟨0, rfl⟩
  evaluate {_ _ d} computing s := by
    rw [Deferred.evaluate_apply]
    split
    · exact ⟨0, rfl⟩
    · exact computing (s.enter d.id)

namespace Session

/-- Two sessions to which the same was added since given ones, and in which all else but the
log is the same. -/
structure Abreast (s₀ t₀ s t : Session) : Prop where
  /-- The same was added. -/
  since : SameSince s₀ t₀ s t
  /-- The same properties are under computation. -/
  evaluating : t.evaluating = s.evaluating
  /-- The same numbers were given out. -/
  numbers : t.nextDeferred = s.nextDeferred
  /-- The clock was read equally often. -/
  ticks : t.ticks = s.ticks

namespace Abreast

variable {s₀ t₀ s t : Session}

/-- Logs do not matter. -/
theorem addLines (abreast : Abreast s₀ t₀ s t) (lines lines' : List LogLine) :
    Abreast s₀ t₀ (s.addLines lines) (t.addLines lines') :=
  ⟨abreast.since.congr rfl rfl rfl rfl, abreast.evaluating, abreast.numbers, abreast.ticks⟩

/-- The same event may be let known. -/
theorem addEvent (abreast : Abreast s₀ t₀ s t) (e : Event) :
    Abreast s₀ t₀ (s.addEvent e) (t.addEvent e) := by
  have added := abreast.since.addEvent e
  cases e with
  | call c => exact ⟨added, abreast.evaluating, abreast.numbers, abreast.ticks⟩
  | failure f cause => exact ⟨added, abreast.evaluating, abreast.numbers, abreast.ticks⟩

/-- The same deferred property may be entered. -/
theorem enter (abreast : Abreast s₀ t₀ s t) (id : Nat) :
    Abreast s₀ t₀ (s.enter id) (t.enter id) :=
  ⟨abreast.since.congr rfl rfl rfl rfl, congrArg (id :: ·) abreast.evaluating, abreast.numbers,
    abreast.ticks⟩

/-- The same deferred property may be left. -/
theorem leave (abreast : Abreast s₀ t₀ s t) (id : Nat) :
    Abreast s₀ t₀ (s.leave id) (t.leave id) :=
  ⟨abreast.since.congr rfl rfl rfl rfl, congrArg (List.erase · id) abreast.evaluating,
    abreast.numbers, abreast.ticks⟩

end Abreast

end Session

open DerivedTags.Session (Abreast)

/-- Computing a deferred property is the same in sessions abreast if its computation is. -/
theorem Deferred.evaluate_abreast {s₀ t₀ : Session} {answer : String → StateM Session Answer}
    {view : View} {d : Deferred}
    (computing : Lockstep (Abreast s₀ t₀) ((d.compute view).run answer)
      ((d.compute view).run answer)) :
    Lockstep (Abreast s₀ t₀) (d.evaluate answer view) (d.evaluate answer view) := by
  intro s t abreast
  rw [evaluate_apply, evaluate_apply, abreast.evaluating]
  split
  · exact ⟨rfl, abreast⟩
  · obtain ⟨same, after⟩ := computing _ _ (abreast.enter d.id)
    exact ⟨same, after.leave d.id⟩

/-- Doing the same in sessions abreast is a discipline. -/
def Session.Abreast.discipline (s₀ t₀ : Session) : Discipline where
  holds x := Lockstep (Abreast s₀ t₀) x x
  pure := .pure
  bind := .bind
  addEvent e := .modify fun _ _ abreast => abreast.addEvent e
  writeLine line _ := .modify fun _ _ abreast => abreast.addLines [line] [line]
  tick _ _ abreast := ⟨abreast.ticks.symm, abreast.since.congr rfl rfl rfl rfl,
    abreast.evaluating, abreast.numbers, congrArg (· + 1) abreast.ticks⟩
  newDeferred _ _ abreast := ⟨abreast.numbers.symm, abreast.since.congr rfl rfl rfl rfl,
    abreast.evaluating, congrArg (· + 1) abreast.numbers, abreast.ticks⟩
  evaluate := Deferred.evaluate_abreast

/-- A leg of two runs: what each of them adds to its session. -/
structure Leg where
  /-- What the first run calls. -/
  calls : List Call
  /-- How many failures the first run counts. -/
  failures : Nat
  /-- What the second run calls. -/
  callsThere : List Call
  /-- How many failures the second run counts. -/
  failuresThere : Nat

namespace Leg

/-- Both runs add the same. -/
def IsShared (leg : Leg) : Prop :=
  leg.callsThere = leg.calls ∧ leg.failuresThere = leg.failures

end Leg

/-- Legs that lead two runs from one session to two. -/
structure Legs (mended : Leg → Prop) (s : Session) (legs : List Leg) (u v : Session) :
    Prop where
  /-- On each of them the same is added, or a call is mended. -/
  kinds : ∀ leg ∈ legs, leg.IsShared ∨ mended leg
  /-- The first run adds its part of them. -/
  here : Tally (legs.flatMap Leg.calls) (legs.map Leg.failures).sum s u
  /-- The second run adds its part of them. -/
  there : Tally (legs.flatMap Leg.callsThere) (legs.map Leg.failuresThere).sum s v

namespace Legs

variable {mended : Leg → Prop} {s u v u' v' : Session} {legs : List Leg} {leg : Leg}

/-- Where nothing has been added there is no leg. -/
theorem nil (s : Session) : Legs mended s [] s s :=
  ⟨fun _ mem => absurd mem List.not_mem_nil, .refl s, .refl s⟩

/-- Another leg leads on. -/
theorem concat (far : Legs mended s legs u v) (kind : leg.IsShared ∨ mended leg)
    (here : Tally leg.calls leg.failures u u')
    (there : Tally leg.callsThere leg.failuresThere v v') :
    Legs mended s (legs ++ [leg]) u' v' where
  kinds other mem := by
    rcases List.mem_append.mp mem with before | last
    · exact far.kinds other before
    · rwa [List.mem_singleton.mp last]
  here := by simpa using far.here.trans here
  there := by simpa using far.there.trans there

end Legs

namespace Session

/-- Two sessions to which legs lead, and in which all else but the log is the same. -/
structure Apart (mended : Leg → Prop) (s u v : Session) : Prop where
  /-- The legs. -/
  legs : ∃ legs, Legs mended s legs u v
  /-- The first run left what is under computation. -/
  evaluating : u.evaluating = s.evaluating
  /-- The second run left what is under computation. -/
  evaluatingThere : v.evaluating = s.evaluating
  /-- The same numbers were given out. -/
  numbers : v.nextDeferred = u.nextDeferred
  /-- The clock was read equally often. -/
  ticks : v.ticks = u.ticks

namespace Apart

variable {mended : Leg → Prop} {s u v u' v' : Session} {α : Type}

/-- The sessions to which legs lead are abreast from then on. -/
theorem abreast (apart : Apart mended s u v) : Abreast u v u v :=
  ⟨.refl u v, apart.evaluatingThere.trans apart.evaluating.symm, apart.numbers, apart.ticks⟩

/-- What is the same on both sides is another leg. -/
theorem onward (apart : Apart mended s u v) (step : Abreast u v u' v')
    (left : u'.evaluating = u.evaluating) : Apart mended s u' v' := by
  obtain ⟨legs, far⟩ := apart.legs
  obtain ⟨calls, failures, here, there⟩ := step.since
  let leg : Leg := ⟨calls, failures, calls, failures⟩
  have shared : leg.IsShared ∨ mended leg := .inl ⟨rfl, rfl⟩
  have evaluating := left.trans apart.evaluating
  exact ⟨⟨_, far.concat shared here there⟩, evaluating, step.evaluating.trans evaluating,
    step.numbers, step.ticks⟩

/-- What keeps every discipline is the same on both sides. -/
theorem same {x : StateM Session α} (keeps : ∀ law : Discipline, law.holds x) :
    Lockstep (Apart mended s) x x := by
  intro u v apart
  obtain ⟨same, step⟩ := keeps (Abreast.discipline u v) u v apart.abreast
  exact ⟨same, apart.onward step (keeps Orderly.discipline u).evaluating⟩

end Apart

end Session

end DerivedTags
