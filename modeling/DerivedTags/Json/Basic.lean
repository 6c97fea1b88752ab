import DerivedTags.Decimal.Range

/-!
# JSON values

Integers are kept apart from doubles, and those above the signed range apart
from the rest, because each kind reads and prints in its own way. The
members of an object stand in increasing order of their keys, each key once.
-/

namespace DerivedTags

/-- A number of a JSON value. -/
inductive JsonNumber where
  /-- An integer of the signed 64-bit range. -/
  | int (n : Int64)
  /-- An integer above the signed range that fits 64 bits without a sign. -/
  | big (n : UInt64)
  /-- A finite double. -/
  | float (x : Float)

/-- A JSON value. -/
inductive Json where
  /-- The null value. -/
  | null
  /-- A truth value. -/
  | bool (b : Bool)
  /-- A number. -/
  | num (n : JsonNumber)
  /-- A text. -/
  | str (s : String)
  /-- An array. -/
  | arr (items : List Json)
  /-- An object, its members in order of their keys. -/
  | obj (members : List (String × Json))
  deriving Inhabited

namespace JsonNumber

/-- The integer, if it has 64 bits with or without a sign. -/
def ofInt? (n : Int) : Option JsonNumber :=
  match Decimal.signed? n with
  | some k => some (.int k)
  | none =>
    if 0 ≤ n && Decimal.isWord n.toNat then some (.big (UInt64.ofNat n.toNat)) else none

/-- The nearest double. -/
def toFloat : JsonNumber → Float
  | .int n => Float.ofInt n.toInt
  | .big n => Float.ofNat n.toNat
  | .float x => x

/-- The number as an index, if it is an integer that is not negative. -/
def index? : JsonNumber → Option Nat
  | .int n => if 0 ≤ n.toInt then some n.toInt.toNat else none
  | .big n => some n.toNat
  | .float _ => none

/-- Numbers of one kind with the same value. An integer differs from a double. -/
def same : JsonNumber → JsonNumber → Bool
  | .int a, .int b => a == b
  | .big a, .big b => a == b
  | .float a, .float b => a == b
  | _, _ => false

end JsonNumber

namespace Json

/-- The integer as a value. -/
def ofInt (n : Int64) : Json := .num (.int n)

/-- A double as a value; one that is not finite has no JSON form and is null. -/
def ofFloat (x : Float) : Json := if x.isFinite then .num (.float x) else .null

/-- Set a member, keeping the order of the keys. -/
def setMember (key : String) (value : Json) : List (String × Json) → List (String × Json)
  | [] => [(key, value)]
  | (other, old) :: rest =>
    if key < other then (key, value) :: (other, old) :: rest
    else if key == other then (key, value) :: rest
    else (other, old) :: setMember key value rest

/-- The object with the given members in any order; of equal keys the last counts. -/
def object (members : List (String × Json)) : Json :=
  .obj (members.foldl (fun sorted m => setMember m.1 m.2 sorted) [])

/-- The members of an object in order. -/
def members? : Json → Option (List (String × Json))
  | .obj members => some members
  | _ => none

/-- The text of a text value. -/
def text? : Json → Option String
  | .str s => some s
  | _ => none

mutual

/-- Two values with the same structure. Doubles are compared as numbers, so
the two zeros are the same. -/
def same : Json → Json → Bool
  | .null, .null => true
  | .bool a, .bool b => a == b
  | .num a, .num b => a.same b
  | .str a, .str b => a == b
  | .arr a, .arr b => sameItems a b
  | .obj a, .obj b => sameMembers a b
  | _, _ => false

/-- Two arrays with the same items. -/
def sameItems : List Json → List Json → Bool
  | [], [] => true
  | a :: as, b :: bs => a.same b && sameItems as bs
  | _, _ => false

/-- Two objects with the same members. -/
def sameMembers : List (String × Json) → List (String × Json) → Bool
  | [], [] => true
  | (k, a) :: as, (l, b) :: bs => k == l && a.same b && sameMembers as bs
  | _, _ => false

end

end Json

end DerivedTags
