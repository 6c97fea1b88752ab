import DerivedTags.Geo.Geometry

/-!
# Lengths and areas on the sphere

Lengths follow great circles on a sphere of the mean radius. Areas use the
spherical excess over consecutive positions and the equatorial radius.
-/

namespace DerivedTags.Geo

/-- The mean radius of the earth in metres. -/
def meanRadius : Float := 6371008.8

/-- The radius of the equator in metres. -/
def equatorialRadius : Float := 6378137.0

/-- Half the circumference of a circle of radius one. -/
def pi : Float := 3.14159265358979323846264338327950288

/-- Degrees as an angle of arc. -/
def radians (degrees : Float) : Float := degrees * (pi / 180.0)

/-- The square of a double. -/
def square (x : Float) : Float := x * x

/-- The distance of two positions along a great circle, in metres. -/
def distance (a b : Position) : Float :=
  let dLat := radians (b.lat - a.lat)
  let dLon := radians (b.lon - a.lon)
  let h := square (dLat / 2.0).sin +
    (radians a.lat).cos * (radians b.lat).cos * square (dLon / 2.0).sin
  2.0 * meanRadius * h.sqrt.atan2 (1.0 - h).sqrt

/-- The length of a line in metres. -/
def pathLength (line : List Position) : Float :=
  Decimal.sum ((Geometry.segments line).map fun s => distance s.1 s.2)

/-- What three consecutive positions of a ring add to its area. -/
def excess (p q r : Position) : Float := (radians r.lon - radians p.lon) * (radians q.lat).sin

/-- The signed area of a ring in square metres. The ring closes by itself;
less than three positions have no area. -/
def ringSurface (ring : List Position) : Float :=
  if ring.length ≤ 2 then 0.0
  else
    let triples := ring.zip ((ring.rotateLeft 1).zip (ring.rotateLeft 2))
    let total := triples.foldl (fun t c => t + excess c.1 c.2.1 c.2.2) 0.0
    total * equatorialRadius * equatorialRadius / 2.0

/-- The area of a polygon without its holes, never negative. -/
def polygonSurface : List (List Position) → Float
  | [] => 0.0
  | outer :: holes =>
    let holesArea := Decimal.sum (holes.map fun ring => (ringSurface ring).abs)
    Decimal.greater ((ringSurface outer).abs - holesArea) 0.0

namespace Geometry

/-- The surface in square metres, zero for all but polygons. -/
def area : Geometry → Float
  | .polygon rings => polygonSurface rings
  | .multiPolygon polygons => Decimal.sum (polygons.map polygonSurface)
  | _ => 0.0

/-- The length in metres: of lines, or of the rings of polygons. -/
def length : Geometry → Float
  | .point _ | .multiPoint _ => 0.0
  | .lineString line => pathLength line
  | .multiLineString lines | .polygon lines => Decimal.sum (lines.map pathLength)
  | .multiPolygon polygons => Decimal.sum (polygons.flatten.map pathLength)

end Geometry

end DerivedTags.Geo
