import DerivedTags.Geo.Box
import DerivedTags.Json.Fields

/-!
# Geometries

The six kinds of geometry, their JSON form and what can be said of them on
the plane of degrees: all positions, the bounding box and the centroid.
-/

namespace DerivedTags.Geo

/-- A geometry. -/
inductive Geometry where
  /-- One position. -/
  | point (p : Position)
  /-- Several positions. -/
  | multiPoint (ps : List Position)
  /-- A line through positions. -/
  | lineString (line : List Position)
  /-- Several lines. -/
  | multiLineString (lines : List (List Position))
  /-- An outer ring and the rings of its holes. -/
  | polygon (rings : List (List Position))
  /-- Several polygons. -/
  | multiPolygon (polygons : List (List (List Position)))

namespace Geometry

/-- The name of a geometry's kind. -/
def kind : Geometry → String
  | .point _ => "Point"
  | .multiPoint _ => "MultiPoint"
  | .lineString _ => "LineString"
  | .multiLineString _ => "MultiLineString"
  | .polygon _ => "Polygon"
  | .multiPolygon _ => "MultiPolygon"

/-- All positions in order. -/
def positions : Geometry → List Position
  | .point p => [p]
  | .multiPoint ps | .lineString ps => ps
  | .multiLineString lines | .polygon lines => lines.flatten
  | .multiPolygon polygons => polygons.flatten.flatten

/-- The least box around a geometry; one without positions has none. -/
def box? (g : Geometry) : Option Box :=
  match g.positions with
  | [] => none
  | p :: rest => some (rest.foldl Box.stretch (Box.ofPosition p))

/-- Neighbouring positions of a line. -/
def segments (line : List Position) : List (Position × Position) := line.zip line.tail

/-- Twice the signed area between a segment and the origin. -/
def cross (s : Position × Position) : Float := s.1.lon * s.2.lat - s.2.lon * s.1.lat

/-- The signed area of a ring on the plane of degrees. -/
def flatArea (ring : List Position) : Float :=
  Decimal.sum ((segments ring).map cross) / 2.0

/-- The centroid of a ring on the plane of degrees; a ring without area has
none. -/
def flatCentre? (ring : List Position) : Option Position :=
  let area := flatArea ring
  if area == 0.0 then none
  else
    let total := (segments ring).foldl
      (fun (t : Position) s =>
        ⟨t.lon + (s.1.lon + s.2.lon) * cross s, t.lat + (s.1.lat + s.2.lat) * cross s⟩)
      ⟨0.0, 0.0⟩
    some ⟨total.lon / (6.0 * area), total.lat / (6.0 * area)⟩

/-- The mean of positions, if there are any. -/
def mean? (ps : List Position) : Option Position :=
  if ps.isEmpty then none
  else
    let total := ps.foldl (fun (t : Position) p => ⟨t.lon + p.lon, t.lat + p.lat⟩) ⟨0.0, 0.0⟩
    let count := Float.ofNat ps.length
    some ⟨total.lon / count, total.lat / count⟩

/-- Centroids gathered with the areas they weigh. -/
structure Weighted where
  /-- The sum of the areas. -/
  weight : Float
  /-- The sum of the longitudes times their areas. -/
  lon : Float
  /-- The sum of the latitudes times their areas. -/
  lat : Float

/-- Add the outer ring of a polygon, if it has a centroid. -/
def Weighted.add (w : Weighted) (rings : List (List Position)) : Weighted :=
  match rings with
  | [] => w
  | outer :: _ =>
    let area := (flatArea outer).abs
    match flatCentre? outer with
    | some c => ⟨w.weight + area, w.lon + c.lon * area, w.lat + c.lat * area⟩
    | none => w

/-- The centre of a geometry: a point itself, polygons by area, all else by
the mean of its positions. Polygons without area count as positions. -/
def centre? (g : Geometry) : Option Position :=
  match g with
  | .point p => some p
  | .polygon (outer :: _) =>
    match flatCentre? outer with
    | some c => some c
    | none => mean? g.positions
  | .multiPolygon polygons =>
    let total := polygons.foldl Weighted.add ⟨0.0, 0.0, 0.0⟩
    if total.weight > 0.0 then some ⟨total.lon / total.weight, total.lat / total.weight⟩
    else mean? g.positions
  | _ => mean? g.positions

/-- Positions as JSON. -/
def lineToJson (line : List Position) : Json := .arr (line.map Position.toJson)

/-- Lists of positions as JSON. -/
def linesToJson (lines : List (List Position)) : Json := .arr (lines.map lineToJson)

/-- The coordinates as JSON. -/
def coordinates : Geometry → Json
  | .point p => p.toJson
  | .multiPoint ps | .lineString ps => lineToJson ps
  | .multiLineString lines | .polygon lines => linesToJson lines
  | .multiPolygon polygons => .arr (polygons.map linesToJson)

/-- The JSON form. -/
def toJson (g : Geometry) : Json :=
  .obj [("coordinates", g.coordinates), ("type", .str g.kind)]

/-- Read an array of positions. -/
def lineOf? : Json → Option (List Position) := Json.itemsOf? Position.ofJson?

/-- Read an array of arrays of positions. -/
def linesOf? : Json → Option (List (List Position)) := Json.itemsOf? lineOf?

/-- Read coordinates of a kind of geometry. -/
def ofCoordinates? (kind : String) (coordinates : Json) : Option Geometry :=
  match kind with
  | "Point" => (Position.ofJson? coordinates).map .point
  | "MultiPoint" => (lineOf? coordinates).map .multiPoint
  | "LineString" => (lineOf? coordinates).map .lineString
  | "MultiLineString" => (linesOf? coordinates).map .multiLineString
  | "Polygon" => (linesOf? coordinates).map .polygon
  | "MultiPolygon" => (Json.itemsOf? linesOf? coordinates).map .multiPolygon
  | _ => none

/-- The kind that the member `type` names: a text, or an object whose only
member has the name for its key and null for its value. -/
def kindOf? : Json → Option String
  | .str kind => some kind
  | .obj [(kind, .null)] => some kind
  | _ => none

/-- Read the JSON form: an object, whose further members are passed over, or
the kind, as a text, and the coordinates in an array. -/
def ofJson? : Json → Option Geometry
  | .obj members =>
    match (members.lookup "type").bind kindOf?, members.lookup "coordinates" with
    | some kind, some coordinates => ofCoordinates? kind coordinates
    | _, _ => none
  | .arr [.str kind, coordinates] => ofCoordinates? kind coordinates
  | _ => none

end Geometry

end DerivedTags.Geo
