import DerivedTags.Proofs.Journal.Orderly

/-!
# Quiet steps of a session

A step is quiet if it is orderly and calls nobody outside.
-/

namespace DerivedTags.Session

/-- From one session to another nobody was called, and the step was orderly. -/
structure Quiet (s t : Session) : Prop extends Precedes s t where
  /-- The calls are the same. -/
  calls : t.calls = s.calls

namespace Quiet

variable {s t u : Session}

/-- Doing nothing is quiet. -/
theorem refl (s : Session) : Quiet s s := ⟨.refl s, rfl⟩

/-- Quiet steps add up. -/
theorem trans (first : Quiet s t) (second : Quiet t u) : Quiet s u :=
  ⟨first.toPrecedes.trans second.toPrecedes, second.calls.trans first.calls⟩

/-- A quiet step keeps a session numbered. -/
theorem numbered (quiet : Quiet s t) (h : s.Numbered) : t.Numbered := quiet.toPrecedes.numbered h

/-- Reading the clock is quiet. -/
theorem tick (s : Session) : Quiet s (DerivedTags.tick s).2 := ⟨Orderly.tick s, rfl⟩

/-- Writing into the log is quiet. -/
theorem writeLine (line : LogLine) (s : Session) : Quiet s (DerivedTags.writeLine line s).2 :=
  ⟨Orderly.writeLine line s, rfl⟩

/-- Taking a number is quiet. -/
theorem newDeferred (s : Session) : Quiet s (DerivedTags.newDeferred s).2 :=
  ⟨Orderly.newDeferred s, rfl⟩

end Quiet

end DerivedTags.Session
