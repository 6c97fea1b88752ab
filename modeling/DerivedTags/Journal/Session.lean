import DerivedTags.Journal.Failures

/-!
# The state behind passes and reads

A session remembers what was called and logged, counts failures, knows which
deferred properties are being computed right now, and numbers new ones.
-/

namespace DerivedTags

/-- What passes and reads share. -/
structure Session where
  /-- The calls of collaborators in order. -/
  calls : List Call
  /-- The lines of the log in order. -/
  log : List LogLine
  /-- The counters of failed tags. -/
  failures : FailureCount
  /-- The deferred properties under computation, innermost first. -/
  evaluating : List Nat
  /-- The number of the next deferred property. -/
  nextDeferred : Nat
  /-- How often the clock was read. -/
  ticks : Nat

namespace Session

/-- A session in which nothing has happened. -/
def start (limit : Nat) : Session := ⟨[], [], .start limit, [], 0, 0⟩

/-- The session after a call of a collaborator. -/
def addCall (s : Session) (c : Call) : Session := { s with calls := s.calls ++ [c] }

/-- The session after lines were logged. -/
def addLines (s : Session) (lines : List LogLine) : Session := { s with log := s.log ++ lines }

/-- The session after an event. -/
def addEvent (s : Session) : Event → Session
  | .call c => s.addCall c
  | .failure f cause =>
    { s.addLines (s.failures.lines f cause) with failures := s.failures.count }

/-- The session with calls and log forgotten; all counters stay. -/
def forget (s : Session) : Session := { s with calls := [], log := [] }

/-- Mark a deferred property as being computed. -/
def enter (s : Session) (deferred : Nat) : Session :=
  { s with evaluating := deferred :: s.evaluating }

/-- Mark a deferred property as no longer being computed. -/
def leave (s : Session) (deferred : Nat) : Session :=
  { s with evaluating := s.evaluating.erase deferred }

/-- Entering and leaving leaves no mark. -/
theorem evaluating_leave_enter (s : Session) (deferred : Nat) :
    ((s.enter deferred).leave deferred).evaluating = s.evaluating := by
  simp [enter, leave]

end Session

/-- Note a call of a collaborator. -/
def noteCall (c : Call) : StateM Session Unit := modify (·.addCall c)

/-- Write a line into the log. -/
def writeLine (line : LogLine) : StateM Session Unit := modify (·.addLines [line])

/-- A number for a new deferred property. -/
def newDeferred : StateM Session Nat :=
  modifyGet fun s => (s.nextDeferred, { s with nextDeferred := s.nextDeferred + 1 })

/-- How often the clock was read before, and read it once more. -/
def tick : StateM Session Nat := modifyGet fun s => (s.ticks, { s with ticks := s.ticks + 1 })

end DerivedTags
