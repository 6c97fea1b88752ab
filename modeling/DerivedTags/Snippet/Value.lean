import DerivedTags.Decimal.Numeral
import DerivedTags.Decimal.Arithmetic
import DerivedTags.Decimal.Shortest
import DerivedTags.Decimal.Fixed
import DerivedTags.Json.Printer
import DerivedTags.Snippet.Whole
import DerivedTags.Text.Blank
import DerivedTags.Text.Search

/-!
# Values of snippets

A value is a JSON value or `undefined`, which a missing member reads as.
Integers stay apart from doubles. An array or object carries an identity
when it can be named twice; strict equality sees nothing else of it.
-/

namespace DerivedTags.Snippet

/-- A value that a snippet computes with. -/
inductive Value where
  /-- What a missing member reads as. -/
  | undefined
  /-- The null value. -/
  | null
  /-- A truth value. -/
  | bool (b : Bool)
  /-- An integer of 64 bits. -/
  | int (n : Int64)
  /-- A double. -/
  | float (x : Float)
  /-- A text. -/
  | str (s : String)
  /-- An array, with an identity if it can be named twice. -/
  | array (identity : Option Nat) (items : List Value)
  /-- An object, its members in order of their keys. -/
  | object (identity : Option Nat) (members : List (String × Value))
  deriving Inhabited

namespace Value

/-- A text given by its characters. -/
def ofChars (cs : List Char) : Value := .str (String.ofList cs)

/-- An array that was just made. -/
def list (items : List Value) : Value := .array none items

/-- Whether a value is `undefined`. -/
def isUndefined : Value → Bool
  | .undefined => true
  | _ => false

/-- Whether a value is `undefined` or null. -/
def isMissing : Value → Bool
  | .undefined | .null => true
  | _ => false

/-- Whether a value counts as true: not missing, not zero, not empty text. -/
def countsAsTrue : Value → Bool
  | .undefined | .null => false
  | .bool b => b
  | .int n => n != 0
  | .float x => x != 0.0 && !x.isNaN
  | .str s => !s.isEmpty
  | .array .. | .object .. => true

/-- The text of a text value. -/
def text? : Value → Option String
  | .str s => some s
  | _ => none

/-- The integer that a number is. A double must be a finite integer; one
beyond 64 bits becomes the nearest end of their range. -/
def int64? : Value → Option Int64
  | .int n => some n
  | .float x =>
    match Decimal.decode x with
    | some d =>
      if d.isWhole then some (Decimal.nearestSigned d.wholePart) else none
    | none => none
  | _ => none

/-- The name of a value's type. -/
def typeName : Value → String
  | .undefined => "undefined"
  | .null | .array .. | .object .. => "object"
  | .bool _ => "boolean"
  | .int _ | .float _ => "number"
  | .str _ => "string"

/-- The number that a text denotes: blank text is zero, other text that is no
number is not-a-number. -/
def numberOfText (s : String) : Float :=
  match Text.trim s.toList with
  | [] => 0.0
  | cs => (Decimal.double? cs).getD (0.0 / 0.0)

mutual

/-- A value as a number. An array counts as its only item. -/
def toNumber : Value → Float
  | .undefined => 0.0 / 0.0
  | .null => 0.0
  | .bool b => if b then 1.0 else 0.0
  | .int n => Whole.toFloat n
  | .float x => x
  | .str s => numberOfText s
  | .array _ items => soleNumber items
  | .object .. => 0.0 / 0.0

/-- No item counts as zero, one item as its number. -/
def soleNumber : List Value → Float
  | [] => 0.0
  | item :: rest => if rest.isEmpty then toNumber item else 0.0 / 0.0

end

/-- The least magnitude at which an integral double is no longer written out
in all its digits. -/
def exactDigitsLimit : Float := 1e21

/-- A double as text: integral ones in all their digits, others by the
shortest digits, never with an exponent. Zero has no sign. -/
def floatText (x : Float) : List Char :=
  match Decimal.decode x with
  | none =>
    if x.isNaN then "NaN".toList
    else if x > 0.0 then "Infinity".toList
    else "-Infinity".toList
  | some d =>
    if d.mantissa == 0 then ['0']
    else if d.isWhole && x.abs < exactDigitsLimit then Decimal.fixedText 0 d
    else Decimal.plainText d

mutual

/-- A value as text. The items of an array stand between commas, missing ones
are empty. -/
def displayChars : Value → List Char
  | .undefined => "undefined".toList
  | .null => "null".toList
  | .bool b => if b then "true".toList else "false".toList
  | .int n => Json.renderInt n.toInt
  | .float x => floatText x
  | .str s => s.toList
  | .array _ items => Text.joinWith [','] (displayItems items)
  | .object .. => "[object Object]".toList

/-- The items of an array as texts. -/
def displayItems : List Value → List (List Char)
  | [] => []
  | item :: rest => (if item.isMissing then [] else displayChars item) :: displayItems rest

end

/-- A value as text. -/
def display (v : Value) : String := String.ofList v.displayChars

mutual

/-- The JSON text of a value. A finite double without a fraction is written
without one; what JSON has no number for is null. -/
def jsonChars : Value → List Char
  | .undefined | .null => "null".toList
  | .bool b => if b then "true".toList else "false".toList
  | .int n => Json.renderInt n.toInt
  | .float x => if x.isFinite then floatText x else "null".toList
  | .str s => Json.renderString s
  | .array _ items => '[' :: jsonItems true items ++ [']']
  | .object _ members => '\x7b' :: jsonMembers true members ++ ['\x7d']

/-- The items of an array, with a comma in front unless the first is next. -/
def jsonItems : Bool → List Value → List Char
  | _, [] => []
  | first, item :: rest =>
    (if first then [] else [',']) ++ jsonChars item ++ jsonItems false rest

/-- The members of an object, undefined ones left out, with a comma in front
unless the first is next. -/
def jsonMembers : Bool → List (String × Value) → List Char
  | _, [] => []
  | first, (key, value) :: rest =>
    if value.isUndefined then jsonMembers first rest
    else
      (if first then [] else [',']) ++ Json.renderString key ++ ':' :: jsonChars value ++
        jsonMembers false rest

end

/-- The JSON text of a value. -/
def jsonText (v : Value) : String := String.ofList v.jsonChars

mutual

/-- A JSON value as a value that no one can name twice. -/
def ofJson : Json → Value
  | .null => .null
  | .bool b => .bool b
  | .num (.int n) => .int n
  | .num n => .float n.toFloat
  | .str s => .str s
  | .arr items => .array none (ofJsonItems items)
  | .obj members => .object none (ofJsonMembers members)

/-- The items of an array as values. -/
def ofJsonItems : List Json → List Value
  | [] => []
  | item :: rest => ofJson item :: ofJsonItems rest

/-- The members of an object as values. -/
def ofJsonMembers : List (String × Json) → List (String × Value)
  | [] => []
  | (key, value) :: rest => (key, ofJson value) :: ofJsonMembers rest

end

mutual

/-- A value as a JSON value: `undefined` and numbers that are not finite are
null, undefined members are left out. -/
def toJson : Value → Json
  | .undefined | .null => .null
  | .bool b => .bool b
  | .int n => Json.ofInt n
  | .float x => Json.ofFloat x
  | .str s => .str s
  | .array _ items => .arr (toJsonItems items)
  | .object _ members => .obj (toJsonMembers members)

/-- The items of an array as JSON values. -/
def toJsonItems : List Value → List Json
  | [] => []
  | item :: rest => toJson item :: toJsonItems rest

/-- The defined members of an object as JSON values. -/
def toJsonMembers : List (String × Value) → List (String × Json)
  | [] => []
  | (key, value) :: rest =>
    if value.isUndefined then toJsonMembers rest
    else (key, toJson value) :: toJsonMembers rest

end

end Value

end DerivedTags.Snippet
