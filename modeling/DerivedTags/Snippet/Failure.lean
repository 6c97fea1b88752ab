/-!
# What can go wrong while a snippet runs

An evaluation fails with an error of its own kinds, or a host function
breaks off with a panic. Where the evaluation ends a panic is contained and
becomes an error like the others.
-/

namespace DerivedTags.Snippet

/-- A computation that broke off, with the text it left, if it left one. -/
structure Panic where
  /-- The text, absent when what was left behind is not text. -/
  text? : Option String
  deriving DecidableEq, Repr

namespace Panic

/-- A panic with a text. -/
def ofText (s : String) : Panic := ⟨some s⟩

/-- The text of a panic. -/
def message (p : Panic) : String := p.text?.getD "unknown panic"

/-- The remainder of the least integer by minus one has no 64-bit quotient. -/
def remainderOverflow : Panic := ofText "attempt to calculate the remainder with overflow"

/-- The quotient of the least integer by minus one has no 64 bits. -/
def divisionOverflow : Panic := ofText "attempt to divide with overflow"

/-- A division of integers by zero. -/
def divisionByZero : Panic := ofText "attempt to divide by zero"

/-- A remainder of integers by zero. -/
def remainderByZero : Panic :=
  ofText "attempt to calculate the remainder with a divisor of zero"

/-- A range of positions that a text does not have. -/
def sliceRange : Panic := ofText "range out of bounds for slice"

/-- A cut of a text inside a character or beyond its end. -/
def charBoundary : Panic := ofText "byte index is not a char boundary"

/-- More places than a number can be written with. -/
def formatRange : Panic := ofText "Formatting argument out of range"

end Panic

/-- Why an evaluation gives no value. -/
inductive EvalFailure where
  /-- A name that the scope does not bind. -/
  | notDefined (name : String)
  /-- A path that cannot be called. -/
  | notFunction (path : List String)
  /-- A member or method of a value that has none, shown as it prints. -/
  | memberOfMissing (key shown : String)
  /-- A method that values of a type do not have. -/
  | noMethod (type name : String)
  /-- The distance method was called with neither an id nor a position. -/
  | distanceUsage
  /-- An error of a host function. -/
  | host (message : String)
  /-- A panic that was contained. -/
  | panicked (p : Panic)
  deriving DecidableEq, Repr

/-- The message of an evaluation error. -/
def EvalFailure.message : EvalFailure → String
  | .notDefined name => name ++ " is not defined"
  | .notFunction path => ".".intercalate path ++ " is not a function"
  | .memberOfMissing key shown => "cannot read property '" ++ key ++ "' of " ++ shown
  | .noMethod type name => type ++ "." ++ name ++ " is not a function"
  | .distanceUsage => "distanceTo expects a feature id or lon, lat"
  | .host message => message
  | .panicked p => "evaluation panicked: " ++ p.message

/-- What ends an evaluation early. -/
inductive Stop where
  /-- An error of the evaluation. -/
  | error (e : EvalFailure)
  /-- A panic that no one has contained yet. -/
  | panic (p : Panic)
  deriving DecidableEq, Repr

end DerivedTags.Snippet
