import DerivedTags.Proofs.Journal.Running

/-!
# What a stretch of a session adds

Calls and failures only add up. A stretch of a session is told by what it adds to them,
whatever came before, so that stretches of different sessions can be compared.
-/

namespace DerivedTags.Session

/-- From one session to another so much was called and so many failures were counted. -/
structure Tally (calls : List Call) (failures : Nat) (s t : Session) : Prop where
  /-- The calls come after those of before. -/
  calls : t.calls = s.calls ++ calls
  /-- The failures add to those of before. -/
  failures : t.failures.failures = s.failures.failures + failures

namespace Tally

variable {calls more : List Call} {failures further : Nat} {s t u : Session}

/-- At first nothing is added. -/
theorem refl (s : Session) : Tally [] 0 s s := ⟨(List.append_nil _).symm, rfl⟩

/-- What stretches add adds up. -/
theorem trans (first : Tally calls failures s t) (second : Tally more further t u) :
    Tally (calls ++ more) (failures + further) s u :=
  ⟨by rw [second.calls, first.calls, List.append_assoc],
    by rw [second.failures, first.failures, Nat.add_assoc]⟩

/-- Only calls and failures count. -/
theorem congr (tally : Tally calls failures s t) (called : u.calls = t.calls)
    (failed : u.failures = t.failures) : Tally calls failures s u :=
  ⟨called.trans tally.calls, (congrArg FailureCount.failures failed).trans tally.failures⟩

/-- A call is added. -/
theorem addCall (tally : Tally calls failures s t) (c : Call) :
    Tally (calls ++ [c]) failures s (t.addCall c) where
  calls := by rw [Session.addCall, tally.calls, List.append_assoc]
  failures := tally.failures

/-- A failure is added. -/
theorem addFailure (tally : Tally calls failures s t) (f : TagFailure) (cause : String) :
    Tally calls (failures + 1) s (t.addEvent (.failure f cause)) where
  calls := tally.calls
  failures := congrArg (· + 1) tally.failures

end Tally

/-- Two stretches of sessions that add the same. -/
def SameSince (s₀ t₀ s t : Session) : Prop :=
  ∃ calls failures, Tally calls failures s₀ s ∧ Tally calls failures t₀ t

namespace SameSince

variable {s₀ t₀ s t : Session}

/-- At first nothing is added on both sides. -/
theorem refl (s t : Session) : SameSince s t s t := ⟨[], 0, .refl s, .refl t⟩

/-- What is added on both sides adds up. -/
theorem trans (first : SameSince s₀ t₀ s t) {s' t' : Session} (second : SameSince s t s' t') :
    SameSince s₀ t₀ s' t' := by
  obtain ⟨calls, failures, here, there⟩ := first
  obtain ⟨more, further, onward, onwardThere⟩ := second
  exact ⟨_, _, here.trans onward, there.trans onwardThere⟩

/-- The same event is added on both sides. -/
theorem addEvent (same : SameSince s₀ t₀ s t) (e : Event) :
    SameSince s₀ t₀ (s.addEvent e) (t.addEvent e) := by
  obtain ⟨calls, failures, here, there⟩ := same
  cases e with
  | call c => exact ⟨_, _, here.addCall c, there.addCall c⟩
  | failure f cause => exact ⟨_, _, here.addFailure f cause, there.addFailure f cause⟩

/-- Only calls and failures count. -/
theorem congr (same : SameSince s₀ t₀ s t) {s' t' : Session} (called : s'.calls = s.calls)
    (failed : s'.failures = s.failures) (calledThere : t'.calls = t.calls)
    (failedThere : t'.failures = t.failures) : SameSince s₀ t₀ s' t' := by
  obtain ⟨calls, failures, here, there⟩ := same
  exact ⟨calls, failures, here.congr called failed, there.congr calledThere failedThere⟩

end SameSince

end DerivedTags.Session
