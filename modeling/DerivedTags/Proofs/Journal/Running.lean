import DerivedTags.Journal.Session

/-!
# Running computations in a session

A computation in a session is a function of the session. Its equations let
proofs follow a pass from one session to the next.
-/

namespace DerivedTags.Session

variable {α β : Type}

/-- A result that needs nothing leaves the session as it is. -/
@[simp] theorem pure_apply (a : α) (s : Session) : (pure a : StateM Session α) s = (a, s) := rfl

/-- A computation goes on in the session that the one before it left. -/
@[simp] theorem bind_apply (x : StateM Session α) (f : α → StateM Session β) (s : Session) :
    (x >>= f) s = f (x s).1 (x s).2 := rfl

/-- A function of the result leaves the session as it is. -/
@[simp] theorem map_apply (f : α → β) (x : StateM Session α) (s : Session) :
    (f <$> x) s = (f (x s).1, (x s).2) := rfl

/-- The session can be looked at. -/
@[simp] theorem get_apply (s : Session) : (get : StateM Session Session) s = (s, s) := rfl

/-- The session can be changed. -/
@[simp] theorem modify_apply (f : Session → Session) (s : Session) :
    (modify f : StateM Session Unit) s = ((), f s) := rfl

end DerivedTags.Session
