import DerivedTags.Snippet.Expr
import DerivedTags.Snippet.Methods

/-!
# What a snippet can see

A scope resolves member paths and may offer calls of its own. Its effects
are those of a monad, so that a scope may read what is computed on demand.
-/

namespace DerivedTags.Snippet

/-- The bindings that an evaluation sees. -/
structure Scope (m : Type → Type) where
  /-- The value at a member path. -/
  resolve : Path → ExceptT Stop m Value
  /-- A call by path, if the scope has it. -/
  call : Path → List Value → Option (ExceptT Stop m Value)

/-- Values by name. -/
structure Bindings where
  /-- The named values. -/
  entries : List (String × Value)

namespace Bindings

/-- The value with a name. -/
def get? (b : Bindings) (name : String) : Option Value := b.entries.lookup name

/-- The value at a member path. An unknown name is an error. -/
def resolve (b : Bindings) : Path → Except Stop Value
  | [] => .ok .undefined
  | name :: rest =>
    match b.get? name with
    | some v => v.follow rest
    | none => .error (.error (.notDefined name))

/-- Bindings as a scope without calls of its own. -/
def scope (b : Bindings) : Scope Id := ⟨fun path => ExceptT.mk (b.resolve path), fun _ _ => none⟩

end Bindings

end DerivedTags.Snippet
