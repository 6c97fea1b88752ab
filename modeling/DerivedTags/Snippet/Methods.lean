import DerivedTags.Snippet.Cut
import DerivedTags.Snippet.Equality
import DerivedTags.Text.Case
import DerivedTags.Text.Units

/-!
# Members and methods of values

A missing value has neither members nor methods. Positions in a text count
its characters, while its length counts UTF-16 units.
-/

namespace DerivedTags.Snippet.Value

/-- A member by name. A member that is not there is `undefined`. -/
def member (v : Value) (key : String) : Except Stop Value :=
  match v with
  | .undefined | .null => .error (.error (.memberOfMissing key v.display))
  | .object _ members => .ok ((members.lookup key).getD .undefined)
  | .array _ items =>
    if key == "length" then .ok (.int (Int64.ofNat items.length))
    else
      match Decimal.index? key.toList with
      | some i => .ok (items.getD i .undefined)
      | none => .ok .undefined
  | .str s =>
    if key == "length" then .ok (.int (Int64.ofNat (Text.units s.toList))) else .ok .undefined
  | _ => .ok .undefined

/-- A member of a member and so on, along a path. -/
def follow (v : Value) : List String → Except Stop Value
  | [] => .ok v
  | key :: rest =>
    match v.member key with
    | .ok inner => inner.follow rest
    | .error e => .error e

/-- An argument as text; one that is not given is `undefined`. -/
def textArgument (args : List Value) (i : Nat) : List Char :=
  (args.getD i .undefined).displayChars

/-- An argument as a position: negative ones are zero, fractions are dropped.
One that is not given or no number is none. -/
def positionArgument? (args : List Value) (i : Nat) : Option Nat :=
  match args[i]? with
  | none => none
  | some v =>
    let x := v.toNumber
    if x.isNaN then none
    else if x < 0.0 then some 0
    else some x.toUInt64.toNat

/-- The first position of an item that is strictly equal, or -1. -/
def positionIn (needle : Value) (items : List Value) : Value :=
  match items.findIdx? (·.identical needle) with
  | some i => .int (Int64.ofNat i)
  | none => .int (-1)

/-- The parts of a text between separators. An empty separator parts all
characters. -/
def splitText (separator cs : List Char) : List (List Char) :=
  if separator.isEmpty then cs.map fun c => [c] else Text.splitOn separator cs

/-- A method of a text. -/
def textMethod (s : String) (name : String) (args : List Value) : Except Stop Value :=
  let cs := s.toList
  let first := textArgument args 0
  match name with
  | "toUpperCase" => .ok (.ofChars (Text.upper cs))
  | "toLowerCase" => .ok (.ofChars (Text.lower cs))
  | "trim" => .ok (.ofChars (Text.trim cs))
  | "includes" => .ok (.bool (Text.occurs first cs))
  | "startsWith" => .ok (.bool (first.isPrefixOf cs))
  | "endsWith" => .ok (.bool (first.isSuffixOf cs))
  | "indexOf" =>
    match Text.find? first cs with
    | some position =>
      (textBefore position cs).map fun before => .int (Int64.ofNat before.length)
    | none => .ok (.int (-1))
  | "split" =>
    match args with
    | [] | .undefined :: _ => .ok (.list [.str s])
    | _ => .ok (.list ((splitText first cs).map ofChars))
  | "substring" =>
    let a := min ((positionArgument? args 0).getD 0) cs.length
    let b := min ((positionArgument? args 1).getD cs.length) cs.length
    (slice (min a b) (max a b) cs).map ofChars
  | "replace" => .ok (.ofChars (Text.replaceFirst first (textArgument args 1) cs))
  | _ => .error (.error (.noMethod "string" name))

/-- A method of an array. -/
def arrayMethod (items : List Value) (name : String) (args : List Value) : Except Stop Value :=
  let needle := args.getD 0 .undefined
  match name with
  | "includes" => .ok (.bool (items.any (·.identical needle)))
  | "indexOf" => .ok (positionIn needle items)
  | "join" =>
    let separator := if needle.isUndefined then [','] else needle.displayChars
    .ok (.ofChars (Text.joinWith separator (displayItems items)))
  | _ => .error (.error (.noMethod "object" name))

/-- The most places a number is written with. -/
def maxPlaces : Nat := 100

/-- The most places that numbers can be written with at all. -/
def placesLimit : Nat := 65535

/-- A number with a fixed number of places, where the caller answers for the
number of places. One that is not finite is shown as it is. -/
def fixed (places : Nat) (x : Float) : Except Stop Value :=
  match Decimal.decode x with
  | some d =>
    if places ≤ placesLimit then .ok (.ofChars (Decimal.fixedText places d))
    else .error (.panic .formatRange)
  | none => .ok (.ofChars (floatText x))

/-- A method of a number. -/
def numberMethod (x : Float) (name : String) (args : List Value) : Except Stop Value :=
  match name with
  | "toFixed" => fixed (min ((positionArgument? args 0).getD 0) maxPlaces) x
  | _ => .error (.error (.noMethod "number" name))

/-- A method of a value. Every value that is not missing has `toString`. -/
def method (receiver : Value) (name : String) (args : List Value) : Except Stop Value :=
  match receiver with
  | .undefined | .null => .error (.error (.memberOfMissing name receiver.display))
  | _ =>
    if name == "toString" then .ok (.ofChars receiver.displayChars)
    else
      match receiver with
      | .str s => textMethod s name args
      | .array _ items => arrayMethod items name args
      | .int n => numberMethod (Whole.toFloat n) name args
      | .float x => numberMethod x name args
      | _ => .error (.error (.noMethod receiver.typeName name))

end DerivedTags.Snippet.Value
