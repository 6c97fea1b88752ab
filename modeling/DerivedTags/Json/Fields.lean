import DerivedTags.Json.Basic

/-!
# Reading data out of JSON values

A record has its data in the members of an object, or in the items of an array
in the order of its fields. A member that is missing takes a default; one that
is there has to be of its kind.
-/

namespace DerivedTags.Json

/-- The truth value of a truth value. -/
def bool? : Json → Option Bool
  | .bool b => some b
  | _ => none

/-- The natural number that an integer is. -/
def natural? : Json → Option Nat
  | .num n => n.index?
  | _ => none

/-- The items of an array, each read in the same way. -/
def itemsOf? {α : Type} (item : Json → Option α) : Json → Option (List α)
  | .arr items => items.mapM item
  | _ => none

/-- The members of a record with some fields: those of an object, or the items of
an array as the first fields. An array may be too short, but not too long. -/
def membersOf? (fields : List String) : Json → Option (List (String × Json))
  | .obj members => some members
  | .arr items => if items.length ≤ fields.length then some (fields.zip items) else none
  | _ => none

/-- The value of a member that may be missing. -/
def field? {α : Type} (members : List (String × Json)) (key : String) (default : α)
    (read : Json → Option α) : Option α :=
  match members.lookup key with
  | some v => read v
  | none => some default

end DerivedTags.Json
