import DerivedTags.Journal.Event
import DerivedTags.Json.Basic
import DerivedTags.Snippet.Failure

/-!
# Computations that read a feature

A computation over the properties of a feature is a tree: it is done, or it
asks for the property under a key and goes on with the answer, or it lets
something be known. Asking for a deferred property may end in a panic, which
is an answer like any other.
-/

namespace DerivedTags

open DerivedTags.Snippet (Panic)

/-- What reading a property gives: a value, nothing, or a panic. -/
abbrev Answer := Except Panic (Option Json)

/-- A computation that reads properties. -/
inductive Reading (α : Type) where
  /-- The result. -/
  | done (a : α)
  /-- Ask for a property and go on with the answer. -/
  | ask (key : String) (next : Answer → Reading α)
  /-- Let an event be known and go on. -/
  | tell (e : Event) (next : Reading α)

namespace Reading

/-- Go on with the result of a computation. -/
def bind {α β : Type} : Reading α → (α → Reading β) → Reading β
  | .done a, f => f a
  | .ask key next, f => .ask key fun answer => (next answer).bind f
  | .tell e next, f => .tell e (next.bind f)

/-- Computations in sequence. -/
instance : Monad Reading where
  pure := .done
  bind := bind

/-- Ask for a property. -/
def property (key : String) : Reading Answer := .ask key .done

/-- Let an event be known. -/
def event (e : Event) : Reading Unit := .tell e (.done ())

/-- A result stands before what goes on with it. -/
theorem pure_bind {α β : Type} (a : α) (f : α → Reading β) : (Reading.done a).bind f = f a := rfl

/-- Going on with the mere result changes nothing. -/
theorem bind_pure {α : Type} (r : Reading α) : r.bind .done = r := by
  induction r with
  | done a => rfl
  | ask key next ih => simp only [bind]; exact congrArg _ (funext ih)
  | tell e next ih => simp only [bind, ih]

/-- Sequences group either way. -/
theorem bind_assoc {α β γ : Type} (r : Reading α) (f : α → Reading β) (g : β → Reading γ) :
    (r.bind f).bind g = r.bind fun a => (f a).bind g := by
  induction r with
  | done a => rfl
  | ask key next ih => simp only [bind]; exact congrArg _ (funext ih)
  | tell e next ih => simp only [bind, ih]

/-- Readings obey the laws of sequences. -/
instance : LawfulMonad Reading :=
  LawfulMonad.mk' Reading (fun r => bind_pure r) (fun a f => pure_bind a f)
    (fun r f g => bind_assoc r f g)

end Reading

end DerivedTags
