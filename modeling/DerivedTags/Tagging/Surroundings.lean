import DerivedTags.Decimal.Binary64
import DerivedTags.Feature.Basic
import DerivedTags.Layer.Basic

/-!
# What a pass can consult

The layout, the features of other layers and the clock. Surroundings
without lookup are detached: nobody is asked and nothing is found.
-/

namespace DerivedTags

open DerivedTags.Snippet (Panic)

/-- Questions across features. -/
structure Lookup where
  /-- The feature with an id. -/
  byId : String → Option Feature
  /-- The features of a layer within a box. -/
  within : String → Geo.Box → List Feature

/-- A moment of local time. -/
structure Moment where
  /-- The year. -/
  year : Nat
  /-- The month, from one. -/
  month : Nat
  /-- The day of the month, from one. -/
  day : Nat
  /-- The hour. -/
  hour : Nat
  /-- The minute. -/
  minute : Nat
  /-- The second. -/
  second : Nat
  deriving DecidableEq, Repr

namespace Moment

/-- The day: year, month and day with dashes. -/
def dateChars (m : Moment) : List Char :=
  Decimal.padded 4 m.year ++ '-' :: Decimal.padded 2 m.month ++ '-' :: Decimal.padded 2 m.day

/-- The time of day with colons. -/
def timeChars (m : Moment) : List Char :=
  Decimal.padded 2 m.hour ++ ':' :: Decimal.padded 2 m.minute ++ ':' :: Decimal.padded 2 m.second

/-- The day as text. -/
def date (m : Moment) : String := String.ofList m.dateChars

/-- The day and the time as text. -/
def dateTime (m : Moment) : String := String.ofList (m.dateChars ++ ' ' :: m.timeChars)

end Moment

/-- What every derivation and every method of a feature can consult. -/
structure Surroundings where
  /-- The layout. -/
  layout : Layout
  /-- Questions across features; detached surroundings have none. -/
  lookup : Option Lookup
  /-- The moment of each reading of the clock. -/
  clock : Nat → Moment

/-- Detached surroundings without layers, in which the clock stands still. -/
def Surroundings.detached : Surroundings := ⟨.empty, none, fun _ => ⟨2024, 1, 1, 0, 0, 0⟩⟩

/-- A store of properties that is told of changes by the id of a feature. -/
structure Store where
  /-- What comes of telling the store. -/
  ping : String → Except Panic (Except TagError Unit)

end DerivedTags
