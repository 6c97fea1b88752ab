import DerivedTags.Proofs.Journal.Running

/-!
# Computations heedless of what was called and logged

Calls and log only grow, and nobody looks back at them. A computation is heedless if
it runs the same from a session in which both were forgotten, and what it calls and
logs there comes after what was called and logged before.
-/

namespace DerivedTags

namespace Session

/-- The second session, with its calls and log after those of the first one. -/
def followedBy (s t : Session) : Session :=
  { t with calls := s.calls ++ t.calls, log := s.log ++ t.log }

variable (s t u : Session)

/-- A session follows itself without its calls and log. -/
theorem followedBy_forget : s.followedBy s.forget = s := by simp [followedBy, forget]

/-- Without calls and log it does not show what a session follows. -/
theorem forget_followedBy : (s.followedBy t).forget = t.forget := rfl

/-- Sessions follow one another in either grouping. -/
theorem followedBy_assoc : (s.followedBy t).followedBy u = s.followedBy (t.followedBy u) := by
  simp only [followedBy, List.append_assoc]

/-- An event comes after what was called and logged before. -/
theorem addEvent_eq_followedBy (e : Event) :
    s.addEvent e = s.followedBy (s.forget.addEvent e) := by
  cases e with
  | call c => simp [addEvent, addCall, followedBy, forget]
  | failure f cause => simp [addEvent, addLines, followedBy, forget]

end Session

/-- The computation runs the same whatever was called and logged before. -/
def Heedless {α : Type} (x : StateM Session α) : Prop :=
  ∀ s : Session, x s = ((x s.forget).1, s.followedBy (x s.forget).2)

namespace Heedless

variable {α β : Type}

/-- A mere result is heedless. -/
theorem pure (a : α) : Heedless (Pure.pure a : StateM Session α) := fun s => by
  simp only [Session.pure_apply, s.followedBy_forget]

/-- Heedless computations in sequence are heedless. -/
theorem bind {x : StateM Session α} {f : α → StateM Session β} (first : Heedless x)
    (onward : ∀ a, Heedless (f a)) : Heedless (x >>= f) := by
  intro s
  simp only [Session.bind_apply]
  rw [first s]
  generalize x s.forget = mid
  rw [onward mid.1 (s.followedBy mid.2), onward mid.1 mid.2, s.forget_followedBy,
    s.followedBy_assoc]

/-- Changes of the session that put their calls and lines last are heedless. -/
protected theorem modify {f : Session → Session} (last : ∀ s, f s = s.followedBy (f s.forget)) :
    Heedless (modify f : StateM Session Unit) := fun s => by
  simp only [Session.modify_apply, ← last s]

/-- Letting an event be known is heedless. -/
theorem addEvent (e : Event) : Heedless (modify (·.addEvent e)) :=
  .modify fun s => s.addEvent_eq_followedBy e

/-- Writing into the log is heedless. -/
theorem writeLine (line : LogLine) : Heedless (writeLine line) :=
  .modify fun s => by simp [Session.addLines, Session.followedBy, Session.forget]

/-- Reading the clock is heedless. -/
theorem tick : Heedless tick := fun s => by
  simp [DerivedTags.tick, modifyGet, MonadStateOf.modifyGet, StateT.modifyGet, Session.followedBy,
    Session.forget, Pure.pure]

/-- Taking a number is heedless. -/
theorem newDeferred : Heedless newDeferred := fun s => by
  simp [DerivedTags.newDeferred, modifyGet, MonadStateOf.modifyGet, StateT.modifyGet,
    Session.followedBy, Session.forget, Pure.pure]

/-- What a heedless computation gives does not depend on calls and log. -/
theorem fst_eq {x : StateM Session α} (heedless : Heedless x) {s t : Session}
    (same : t.forget = s.forget) : (x t).1 = (x s).1 := by
  rw [heedless t, heedless s, same]

/-- Calls and log apart, a heedless computation leads to the same session. -/
theorem forget_eq {x : StateM Session α} (heedless : Heedless x) {s t : Session}
    (same : t.forget = s.forget) : (x t).2.forget = (x s).2.forget := by
  rw [heedless t, heedless s, same]
  rfl

/-- What a heedless computation calls comes after what was called before. -/
theorem calls_eq {x : StateM Session α} (heedless : Heedless x) (s : Session) :
    (x s).2.calls = s.calls ++ (x s.forget).2.calls := by
  rw [heedless s]
  rfl

end Heedless

end DerivedTags
