import DerivedTags.Feature.Properties
import DerivedTags.Json.Printer

/-!
# Features

A feature has an id, possibly a geometry, and properties. In its JSON form
only concrete properties appear.
-/

namespace DerivedTags

/-- A feature of a map. -/
structure Feature where
  /-- The id. -/
  id : String
  /-- The geometry. -/
  geometry : Option Geo.Geometry
  /-- The properties. -/
  properties : Properties

/-- Why a JSON value is no feature. -/
inductive FeatureError where
  /-- It does not have the form of a feature. -/
  | malformed
  /-- It has no id. -/
  | missingId
  deriving DecidableEq, Repr

namespace Feature

/-- What a computation sees of the feature. -/
def view (f : Feature) : View := ⟨f.id, f.geometry, f.properties.concrete⟩

/-- The feature with other properties. -/
def withProperties (f : Feature) (ps : Properties) : Feature := ⟨f.id, f.geometry, ps⟩

/-- The feature with a property put under a key. -/
def set (f : Feature) (key : String) (slot : Slot) : Feature :=
  f.withProperties (f.properties.set key slot)

/-- The feature without the property under a key. -/
def erase (f : Feature) (key : String) : Feature := f.withProperties (f.properties.erase key)

/-- The JSON form of a geometry that may be missing. -/
def geometryJson (g : Option Geo.Geometry) : Json := (g.map Geo.Geometry.toJson).getD .null

/-- The JSON form. -/
def toJson (f : Feature) : Json :=
  .obj [("geometry", geometryJson f.geometry), ("id", .str f.id),
    ("properties", f.properties.toJson), ("type", .str "Feature")]

/-- The id that a JSON value gives: a text, or a number by its text. -/
def idOf? : Json → Option String
  | .str s => some s
  | .num n => some (String.ofList (Json.renderNumber n))
  | _ => none

/-- Read a geometry that may be missing or null. -/
def geometryOf? (members : List (String × Json)) : Option (Option Geo.Geometry) :=
  match members.lookup "geometry" with
  | none | some .null => some none
  | some v => (Geo.Geometry.ofJson? v).map some

/-- Read properties that may be missing or null. -/
def propertiesOf? (members : List (String × Json)) : Option (List (String × Json)) :=
  match members.lookup "properties" with
  | none | some .null => some []
  | some (.obj properties) => some properties
  | some _ => none

/-- Make a feature of its members. The id stands in the feature itself or, failing
that, in its properties. -/
def ofMembers (members : List (String × Json)) : Except FeatureError Feature :=
  match geometryOf? members, propertiesOf? members with
  | some geometry, some properties =>
    match (members.lookup "id").bind idOf? with
    | some id => .ok ⟨id, geometry, .ofMembers properties⟩
    | none =>
      match (properties.lookup "id").bind idOf? with
      | some id => .ok ⟨id, geometry, .ofMembers properties⟩
      | none => .error .missingId
  | _, _ => .error .malformed

/-- Read the JSON form. -/
def ofJson (j : Json) : Except FeatureError Feature :=
  match Json.membersOf? ["id", "geometry", "properties"] j with
  | some members => ofMembers members
  | none => .error .malformed

end Feature

end DerivedTags
