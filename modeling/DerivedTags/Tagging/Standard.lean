import DerivedTags.Geo.Measure
import DerivedTags.Snippet.Value
import DerivedTags.Tagging.Derivation

/-!
# The standard derivations

Centre, layer, kind of geometry, surface, length and date of a feature. The
eager ones count as a change only what differs from the stored value; the
lazy ones leave computations that give text.
-/

namespace DerivedTags.Standard

open DerivedTags.Geo

/-- The edits that store a value under a key: none if it is there already. -/
def store (f : Feature) (key : String) (value : Json) : List Edit :=
  if (f.properties.concrete? key).any (·.same value) then [] else [.insert key value]

/-- Store values under keys. It is a change if any of them was not there. -/
def storing (f : Feature) (values : List (String × Json)) : Reading Proposal :=
  let edits := values.flatMap fun (key, value) => store f key value
  .done ⟨edits, .ok (.ok (!edits.isEmpty))⟩

/-- Nothing to do. -/
def nothing : Reading Proposal := .done ⟨[], .ok (.ok false)⟩

/-- A number as the text of a tag. -/
def textOfNumber (x : Float) : Json := .str (Snippet.Value.float x).display

/-- A double rounded to one place. -/
def roundToTenth (x : Float) : Float := (x * 10.0).round / 10.0

/-- A computation of a text from the geometry of a feature; without geometry
it gives nothing. -/
def fromGeometry (measure : Geometry → Float) (view : View) : Reading Answer :=
  .done (.ok (view.geometry.map fun g => textOfNumber (measure g)))

/-- Leave computations from the geometry under keys. It is always a change. -/
def measuring (measures : List (String × (Geometry → Float))) : Reading Proposal :=
  .done ⟨measures.map fun (key, measure) => .defer key (fromGeometry measure), .ok (.ok true)⟩

/-- The keys of the centre. -/
def centreKeys : List String := ["_lat", "_lon"]

/-- `_lat` and `_lon`: the centre of the geometry. -/
def centre : Derivation where
  keys := centreKeys
  isLazy := false
  includesDates := false
  propose _ _ _ f :=
    match f.geometry.bind Geometry.centre? with
    | none => nothing
    | some p =>
      if p.lat.isFinite && p.lon.isFinite then
        storing f [("_lat", Json.ofFloat p.lat), ("_lon", Json.ofFloat p.lon)]
      else .done ⟨[], .ok (.error (.ofDerivation centreKeys "centroid is not finite"))⟩

/-- `_layer`: the id of the layer. -/
def layer : Derivation where
  keys := ["_layer"]
  isLazy := false
  includesDates := false
  propose layer _ _ f := storing f [("_layer", .str layer.id)]

/-- `_geometry:type`: the kind of the geometry. -/
def geometryKind : Derivation where
  keys := ["_geometry:type"]
  isLazy := false
  includesDates := false
  propose _ _ _ f :=
    match f.geometry with
    | none => nothing
    | some g => storing f [("_geometry:type", .str g.kind)]

/-- Hectares with one place, rounded down. -/
def hectares (area : Float) : Float := (area / 1000.0).floor / 10.0

/-- `_surface` and `_surface:ha`: the area in square metres and in hectares. -/
def surface : Derivation where
  keys := ["_surface", "_surface:ha"]
  isLazy := true
  includesDates := false
  propose _ _ _ _ :=
    measuring [("_surface", fun g => g.area.round), ("_surface:ha", fun g => hectares g.area)]

/-- `_length` and `_length:km`: the length in metres and in kilometres. -/
def length : Derivation where
  keys := ["_length", "_length:km"]
  isLazy := true
  includesDates := false
  propose _ _ _ _ :=
    measuring [("_length", fun g => roundToTenth g.length),
      ("_length:km", fun g => roundToTenth (g.length / 1000.0))]

/-- `_now:date` and `_now:datetime`: the moment of the pass in local time. -/
def date : Derivation where
  keys := ["_now:date", "_now:datetime"]
  isLazy := false
  includesDates := true
  propose _ _ moment f :=
    storing f [("_now:date", .str moment.date), ("_now:datetime", .str moment.dateTime)]

/-- The standard derivations in their order. -/
def all : Registry := [centre, layer, geometryKind, surface, length, date]

/-- Derivations from some places of this list are standard. -/
theorem mem_all_of_places (places : List Nat) : ∀ d ∈ places.filterMap (all[·]?), d ∈ all := by
  intro d mem
  obtain ⟨place, -, found⟩ := List.mem_filterMap.mp mem
  exact List.mem_of_getElem? found

end DerivedTags.Standard
