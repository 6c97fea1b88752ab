import DerivedTags.Decimal.Arithmetic
import DerivedTags.Json.Fields

/-!
# Positions and bounding boxes

Positions are in degrees. Boxes are closed: touching boxes intersect, and a
point on the border is inside.
-/

namespace DerivedTags.Geo

/-- A place on the earth, in degrees. -/
structure Position where
  /-- Degrees east. -/
  lon : Float
  /-- Degrees north. -/
  lat : Float

/-- A box along the axes, in degrees. -/
structure Box where
  /-- West side. -/
  minLon : Float
  /-- South side. -/
  minLat : Float
  /-- East side. -/
  maxLon : Float
  /-- North side. -/
  maxLat : Float

namespace Position

/-- The JSON form: longitude, then latitude. -/
def toJson (p : Position) : Json := .arr [Json.ofFloat p.lon, Json.ofFloat p.lat]

/-- Read the JSON form, exactly two numbers. -/
def ofJson? : Json → Option Position
  | .arr [.num lon, .num lat] => some ⟨lon.toFloat, lat.toFloat⟩
  | _ => none

end Position

namespace Box

/-- The box of a single position. -/
def ofPosition (p : Position) : Box := ⟨p.lon, p.lat, p.lon, p.lat⟩

/-- The least box with the box and a position in it. -/
def stretch (b : Box) (p : Position) : Box :=
  ⟨Decimal.lesser b.minLon p.lon, Decimal.lesser b.minLat p.lat,
    Decimal.greater b.maxLon p.lon, Decimal.greater b.maxLat p.lat⟩

/-- Whether two boxes have a point in common. -/
def intersects (a b : Box) : Bool :=
  a.minLon ≤ b.maxLon && b.minLon ≤ a.maxLon && a.minLat ≤ b.maxLat && b.minLat ≤ a.maxLat

/-- Whether a position lies in the box. -/
def contains (b : Box) (p : Position) : Bool :=
  b.minLon ≤ p.lon && p.lon ≤ b.maxLon && b.minLat ≤ p.lat && p.lat ≤ b.maxLat

/-- The box with every side moved outward. -/
def widen (b : Box) (degrees : Float) : Box :=
  ⟨b.minLon - degrees, b.minLat - degrees, b.maxLon + degrees, b.maxLat + degrees⟩

/-- Read the JSON form, a record of the four sides. -/
def ofJson? (j : Json) : Option Box := do
  let members ← Json.membersOf? ["minLon", "minLat", "maxLon", "maxLat"] j
  match members.lookup "minLon", members.lookup "minLat", members.lookup "maxLon",
    members.lookup "maxLat" with
  | some (.num west), some (.num south), some (.num east), some (.num north) =>
    some ⟨west.toFloat, south.toFloat, east.toFloat, north.toFloat⟩
  | _, _, _, _ => none

end Box

end DerivedTags.Geo
