import DerivedTags.Proofs.Journal.Running

/-!
# Orderly computations

A computation in a session is orderly if it leaves the same properties under
computation and takes back no number. Orderly computations in sequence are orderly,
so that a session whose numbers under computation were all given out stays one.
-/

namespace DerivedTags

namespace Session

/-- The properties under computation have numbers that were given out. -/
def Numbered (s : Session) : Prop := ∀ id ∈ s.evaluating, id < s.nextDeferred

/-- A session in which nothing has happened is numbered. -/
theorem numbered_start (limit : Nat) : (start limit).Numbered := by simp [Numbered, start]

/-- From one session to another the properties under computation stayed the same,
and numbers were only given out. -/
structure Precedes (s t : Session) : Prop where
  /-- The same properties are under computation. -/
  evaluating : t.evaluating = s.evaluating
  /-- Numbers are only given out. -/
  numbers : s.nextDeferred ≤ t.nextDeferred

namespace Precedes

variable {s t u : Session}

/-- Doing nothing is orderly. -/
theorem refl (s : Session) : Precedes s s := ⟨rfl, Nat.le_refl _⟩

/-- Orderly steps add up. -/
theorem trans (first : Precedes s t) (second : Precedes t u) : Precedes s u :=
  ⟨second.evaluating.trans first.evaluating, Nat.le_trans first.numbers second.numbers⟩

/-- An orderly step keeps a session numbered. -/
theorem numbered (step : Precedes s t) (h : s.Numbered) : t.Numbered := by
  intro id mem
  rw [step.evaluating] at mem
  exact Nat.lt_of_lt_of_le (h id mem) step.numbers

end Precedes

end Session

/-- The computation leaves the same properties under computation and takes back no
number. -/
def Orderly {α : Type} (x : StateM Session α) : Prop := ∀ s : Session, s.Precedes (x s).2

namespace Orderly

variable {α β : Type}

/-- A mere result is orderly. -/
theorem pure (a : α) : Orderly (Pure.pure a : StateM Session α) := fun s => .refl s

/-- Orderly computations in sequence are orderly. -/
theorem bind {x : StateM Session α} {f : α → StateM Session β} (first : Orderly x)
    (onward : ∀ a, Orderly (f a)) : Orderly (x >>= f) :=
  fun s => (first s).trans (onward (x s).1 (x s).2)

/-- Writing into the log is orderly. -/
theorem writeLine (line : LogLine) : Orderly (writeLine line) := fun _ => ⟨rfl, Nat.le_refl _⟩

/-- Reading the clock is orderly. -/
theorem tick : Orderly tick := fun _ => ⟨rfl, Nat.le_refl _⟩

/-- Taking a number is orderly. -/
theorem newDeferred : Orderly newDeferred := fun _ => ⟨rfl, Nat.le_succ _⟩

/-- Letting an event be known is orderly. -/
theorem addEvent (e : Event) : Orderly (modify (·.addEvent e)) := by
  intro s
  cases e with
  | call c => exact ⟨rfl, Nat.le_refl _⟩
  | failure f cause => exact ⟨rfl, Nat.le_refl _⟩

end Orderly

namespace Session.Precedes

/-- Lines in the log are an orderly step. -/
theorem addLines (s : Session) (lines : List LogLine) : s.Precedes (s.addLines lines) :=
  ⟨rfl, Nat.le_refl _⟩

/-- An event is an orderly step. -/
theorem addEvent (s : Session) (e : Event) : s.Precedes (s.addEvent e) := Orderly.addEvent e s

end Session.Precedes

end DerivedTags
