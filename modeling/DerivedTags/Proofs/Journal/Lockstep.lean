import DerivedTags.Proofs.Journal.Running

/-!
# Computations in lockstep

Two computations keep in lockstep, as to a relation between sessions, if from
related sessions they give the same result and lead to related sessions again. The
relation says what the two may differ in without anyone noticing.
-/

namespace DerivedTags

/-- From related sessions both give the same result and lead to related sessions. -/
def Lockstep {α : Type} (related : Session → Session → Prop) (x y : StateM Session α) : Prop :=
  ∀ s t, related s t → (x s).1 = (y t).1 ∧ related (x s).2 (y t).2

namespace Lockstep

variable {α β : Type} {related : Session → Session → Prop}

/-- The same mere result is in lockstep. -/
theorem pure (a : α) : Lockstep related (Pure.pure a) (Pure.pure a : StateM Session α) :=
  fun _ _ h => ⟨rfl, h⟩

/-- Computations in lockstep stay so if they go on in lockstep with whatever they may give. -/
theorem bind_of {x y : StateM Session α} {f g : α → StateM Session β}
    (first : Lockstep related x y) (given : α → Prop) (gives : ∀ s, given (x s).1)
    (onward : ∀ a, given a → Lockstep related (f a) (g a)) :
    Lockstep related (x >>= f) (y >>= g) := by
  intro s t h
  obtain ⟨same, next⟩ := first s t h
  simp only [Session.bind_apply, ← same]
  exact onward _ (gives s) _ _ next

/-- Computations in lockstep that go on in lockstep stay so. -/
theorem bind {x y : StateM Session α} {f g : α → StateM Session β} (first : Lockstep related x y)
    (onward : ∀ a, Lockstep related (f a) (g a)) : Lockstep related (x >>= f) (y >>= g) :=
  first.bind_of (fun _ => True) (fun _ => trivial) fun a _ => onward a

/-- Changes of the session that keep the relation are in lockstep. -/
theorem modify {f g : Session → Session} (keeps : ∀ s t, related s t → related (f s) (g t)) :
    Lockstep related (modify f) (modify g : StateM Session Unit) :=
  fun s t h => ⟨rfl, keeps s t h⟩

end Lockstep

end DerivedTags
