import DerivedTags.Json.Fields

/-!
# Switches of a pass and settings of a tagger

Every member of their JSON forms may be missing and then has its usual value.
-/

namespace DerivedTags

/-- What a pass computes. -/
structure Options where
  /-- Whether keys that depend on the date are computed. -/
  includeDates : Bool
  /-- Whether all other keys are computed. -/
  includeNonDates : Bool
  /-- Whether nothing may stay deferred. -/
  evaluateStrict : Bool
  deriving DecidableEq, Repr

/-- Settings of a tagger. -/
structure Settings where
  /-- How many failures of calculated tags are logged. -/
  errorOutputLimit : Nat
  deriving DecidableEq, Repr

namespace Options

/-- All keys, deferred ones stay deferred. -/
def default : Options := ⟨true, true, false⟩

/-- Read the JSON form. -/
def ofJson? (j : Json) : Option Options := do
  let members ← Json.membersOf? ["includeDates", "includeNonDates", "evaluateStrict"] j
  let dates ← Json.field? members "includeDates" true Json.bool?
  let nonDates ← Json.field? members "includeNonDates" true Json.bool?
  let strict ← Json.field? members "evaluateStrict" false Json.bool?
  some ⟨dates, nonDates, strict⟩

/-- The JSON form. -/
def toJson (o : Options) : Json :=
  .obj [("evaluateStrict", .bool o.evaluateStrict), ("includeDates", .bool o.includeDates),
    ("includeNonDates", .bool o.includeNonDates)]

/-- Switches survive writing and reading. -/
theorem ofJson?_toJson (o : Options) : ofJson? o.toJson = some o := rfl

end Options

namespace Settings

/-- Ten failures are logged. -/
def default : Settings := ⟨10⟩

/-- Read the JSON form. -/
def ofJson? (j : Json) : Option Settings := do
  let members ← Json.membersOf? ["errorOutputLimit"] j
  let limit ← Json.field? members "errorOutputLimit" 10 Json.natural?
  some ⟨limit⟩

/-- The JSON form. -/
def toJson (s : Settings) : Json :=
  .obj [("errorOutputLimit", .num ((JsonNumber.ofInt? s.errorOutputLimit).getD (.int 0)))]

end Settings

end DerivedTags
