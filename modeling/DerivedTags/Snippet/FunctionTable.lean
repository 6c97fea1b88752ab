import DerivedTags.Snippet.Cut
import DerivedTags.Snippet.Value

/-!
# The function table

Snippets call functions by their dotted names. Every table is a value of its
own; the standard one has rounding, extremes and conversions.
-/

namespace DerivedTags.Snippet

/-- A function of a table. -/
abbrev HostFunction := List Value → Except Stop Value

/-- Functions by name. -/
structure FunctionTable where
  /-- The named functions, a replaced one before the one it replaces. -/
  entries : List (String × HostFunction)

namespace FunctionTable

/-- The table without functions. -/
def empty : FunctionTable := ⟨[]⟩

/-- The function with a name. -/
def get? (fs : FunctionTable) (name : String) : Option HostFunction := fs.entries.lookup name

/-- Whether the table has a function with this name. -/
def contains (fs : FunctionTable) (name : String) : Bool := (fs.get? name).isSome

/-- The table with a function added or replaced. -/
def insert (fs : FunctionTable) (name : String) (f : HostFunction) : FunctionTable :=
  ⟨(name, f) :: fs.entries⟩

/-- The first argument as a number; without one there is no number. -/
def numberOfFirst (args : List Value) : Float :=
  match args with
  | v :: _ => v.toNumber
  | [] => 0.0 / 0.0

/-- The first argument as text; without one the text is empty. -/
def textOfFirst (args : List Value) : List Char :=
  match args with
  | v :: _ => v.displayChars
  | [] => []

/-- A function of the first argument as a number. -/
def numeric (f : Float → Float) : HostFunction := fun args => .ok (.float (f (numberOfFirst args)))

/-- The nearest integer, a half goes up. -/
def roundHalfUp (x : Float) : Float := (x + 0.5).floor

/-- The extreme of numbers: a number replaces the one before it only if it
is strictly better. One that is no number decides the result. -/
def extreme (better : Float → Float → Bool) : Float → List Float → Float
  | best, [] => best
  | best, x :: rest =>
    if x.isNaN then x
    else extreme better (if better x best then x else best) rest

/-- The least argument; positive infinity without arguments. -/
def least : HostFunction := fun args =>
  .ok (.float (extreme (fun x y => x < y) (1.0 / 0.0) (args.map Value.toNumber)))

/-- The greatest argument; negative infinity without arguments. -/
def greatest : HostFunction := fun args =>
  .ok (.float (extreme (fun x y => y < x) (-1.0 / 0.0) (args.map Value.toNumber)))

/-- The argument as a number. An integer stays one; no argument is zero. -/
def number : HostFunction
  | [] => .ok (.int 0)
  | .int n :: _ => .ok (.int n)
  | v :: _ => .ok (.float v.toNumber)

/-- The argument as text. -/
def text : HostFunction := fun args => .ok (.ofChars (textOfFirst args))

/-- The byte position at which the sign and digits at the start of a text end. -/
def integerEnd (cs : List Char) : Nat :=
  Text.endFrom (fun position c => c.isDigit || position == 0 && (c == '-' || c == '+')) 0 cs

/-- The integer that the argument begins with. -/
def parseInteger : HostFunction := fun args => do
  let cs := Text.trimStart (textOfFirst args)
  let digits ← textBefore (integerEnd cs) cs
  match Decimal.int64? digits with
  | some n => .ok (.int n)
  | none => .ok (.float (0.0 / 0.0))

/-- The finite double of the longest prefix that denotes one, of those that end between
characters and at a byte position that is not above the given one. -/
def longestDouble (cs : List Char) : Nat → Except Stop (Option Float)
  | 0 => .ok none
  | position + 1 =>
    if Text.isBoundary (position + 1) cs then do
      let numeral ← textBefore (position + 1) cs
      match (Decimal.double? numeral).filter Float.isFinite with
      | some x => .ok (some x)
      | none => longestDouble cs position
    else longestDouble cs position

/-- The number that the argument begins with. -/
def parseDecimal : HostFunction := fun args => do
  let cs := Text.trimStart (textOfFirst args)
  let longest ← longestDouble cs (Text.bytes cs)
  .ok (.float (longest.getD (0.0 / 0.0)))

/-- Whether the argument is not a number. -/
def notNumber : HostFunction := fun args => .ok (.bool (numberOfFirst args).isNaN)

/-- The standard table. -/
def standard : FunctionTable :=
  ⟨[("Math.round", numeric roundHalfUp), ("Math.floor", numeric Float.floor),
    ("Math.ceil", numeric Float.ceil), ("Math.abs", numeric Float.abs),
    ("Math.sqrt", numeric Float.sqrt), ("Math.min", least), ("Math.max", greatest),
    ("Number", number), ("String", text), ("parseInt", parseInteger),
    ("parseFloat", parseDecimal), ("isNaN", notNumber)]⟩

end FunctionTable

end DerivedTags.Snippet
