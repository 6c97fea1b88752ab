import DerivedTags.Snippet.Value

/-!
# Equality and order of values

Strict equality compares numbers across their kinds, and arrays and objects
by identity. Loose equality also compares primitive values of different
types as numbers. Structural equality looks into arrays and objects.
-/

namespace DerivedTags.Snippet.Value

/-- Two identities that are known and the same. -/
def sameIdentity : Option Nat → Option Nat → Bool
  | some a, some b => a == b
  | _, _ => false

/-- Strict equality. -/
def identical : Value → Value → Bool
  | .undefined, .undefined => true
  | .null, .null => true
  | .bool a, .bool b => a == b
  | .int a, .int b => a == b
  | .int a, .float y => Whole.toFloat a == y
  | .float x, .int b => x == Whole.toFloat b
  | .float x, .float y => x == y
  | .str a, .str b => a == b
  | .array a _, .array b _ => sameIdentity a b
  | .object a _, .object b _ => sameIdentity a b
  | _, _ => false

/-- Whether a value is an array or an object. -/
def isContainer : Value → Bool
  | .array .. | .object .. => true
  | _ => false

/-- Loose equality: missing values equal only each other, containers are
compared strictly, two texts as texts and all else as numbers. -/
def equals (a b : Value) : Bool :=
  if a.isMissing || b.isMissing then a.isMissing && b.isMissing
  else if a.isContainer || b.isContainer then identical a b
  else
    match a, b with
    | .str s, .str t => s == t
    | _, _ => a.toNumber == b.toNumber

mutual

/-- Structural equality; numbers are compared across their kinds. -/
def same : Value → Value → Bool
  | .undefined, .undefined => true
  | .null, .null => true
  | .bool a, .bool b => a == b
  | .int a, .int b => a == b
  | .int a, .float y => Whole.toFloat a == y
  | .float x, .int b => x == Whole.toFloat b
  | .float x, .float y => x == y
  | .str a, .str b => a == b
  | .array _ a, .array _ b => sameItems a b
  | .object _ a, .object _ b => sameMembers a b
  | _, _ => false

/-- Two arrays with the same items. -/
def sameItems : List Value → List Value → Bool
  | [], [] => true
  | a :: as, b :: bs => a.same b && sameItems as bs
  | _, _ => false

/-- Two objects with the same members. -/
def sameMembers : List (String × Value) → List (String × Value) → Bool
  | [], [] => true
  | (k, a) :: as, (l, b) :: bs => k == l && a.same b && sameMembers as bs
  | _, _ => false

end

/-- The order of two doubles; there is none if one of them is no number. -/
def compareFloats (x y : Float) : Option Ordering :=
  if x == y then some .eq
  else if x < y then some .lt
  else if y < x then some .gt
  else none

/-- The order of two integers. -/
def compareInts (a b : Int) : Ordering :=
  if a = b then .eq else if a < b then .lt else .gt

/-- The order of two texts, by code points. -/
def compareTexts (a b : String) : Ordering :=
  if a = b then .eq else if a < b then .lt else .gt

/-- The order of two values: texts as texts, integers as integers, all else
as numbers. -/
def compare? : Value → Value → Option Ordering
  | .str a, .str b => some (compareTexts a b)
  | .int a, .int b => some (compareInts a.toInt b.toInt)
  | a, b => compareFloats a.toNumber b.toNumber

end DerivedTags.Snippet.Value
