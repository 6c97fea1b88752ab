import DerivedTags.Geo.Measure
import DerivedTags.Json.Parser
import DerivedTags.Snippet.Eval
import DerivedTags.Tagging.Surroundings

/-!
# Methods of a feature

Methods are calls `feat.name(…)` in snippets, attached to each feature once
in a pass. The standard ones read properties as JSON, measure distances and
look for other features.
-/

namespace DerivedTags

open DerivedTags.Geo
open DerivedTags.Snippet

/-- A computation over a feature that may stop early. -/
abbrev Evaluation (α : Type) := ExceptT Stop Reading α

/-- The calls attached to a feature. -/
structure FeatureMethods where
  /-- A call by name, if there is such a method. -/
  call : View → String → List Value → Option (Evaluation Value)

/-- Attaches methods to features. It may fail or break off. -/
structure MethodSource where
  /-- The methods of a feature. -/
  attach : Surroundings → View → Reading (Except Panic (Except TagError FeatureMethods))

namespace FeatureMethods

/-- No methods at all. -/
def empty : FeatureMethods := ⟨fun _ _ _ => none⟩

/-- The usual limit of the search for the closest feature, in metres. -/
def closestDistance : Float := 500.0

/-- Metres of one degree, by which searches are widened. -/
def degreeInMetres : Float := 111000.0

/-- The property under a key, for an evaluation: a panic stays one. -/
def property (key : String) : Evaluation (Option Json) :=
  ExceptT.mk ((Reading.property key).bind fun answer =>
    match answer with
    | .ok v => .done (.ok v)
    | .error p => .done (.error (.panic p)))

/-- A value that needs nothing. -/
def give (v : Value) : Evaluation Value := pure v

/-- Let a call of a collaborator be known. -/
def note (c : Call) : Evaluation Unit := ExceptT.lift (Reading.event (.call c))

/-- A property as a value. A text that holds JSON other than null is read. -/
def parsed : Option Json → Value
  | none => .undefined
  | some (.str s) =>
    match Json.parse s with
    | none | some .null => .str s
    | some v => .ofJson v
  | some v => .ofJson v

/-- `feat.get(key)`: the property under a key, read as JSON if it is text. -/
def get (args : List Value) : Evaluation Value :=
  match args with
  | [] => give .undefined
  | key :: _ => do
    let v ← property key.display
    give (parsed v)

/-- The centre of a feature. -/
def centre? (f : Feature) : Option Position := f.geometry.bind Geometry.centre?

/-- The box around a feature. -/
def box? (f : Feature) : Option Box := f.geometry.bind Geometry.box?

/-- The distance from a centre to a place that may be missing. -/
def distanceFrom (centre : Position) (target : Option Position) : Value :=
  match target with
  | some p => .float (distance centre p)
  | none => .undefined

/-- `feat.distanceTo(id)` or `feat.distanceTo(lon, lat)`: the distance from the
centre of the feature in metres. -/
def distanceCall (lookup : Option Lookup) (centre : Option Position) (args : List Value) :
    Evaluation Value :=
  match centre with
  | none => give .undefined
  | some start =>
    match args with
    | [.str id] =>
      match lookup with
      | none => give .undefined
      | some l => do
        note (.lookedUp id)
        give (distanceFrom start ((l.byId id).bind centre?))
    | lon :: lat :: _ =>
      let p : Position := ⟨lon.toNumber, lat.toNumber⟩
      if p.lon.isNaN || p.lat.isNaN then settled (.error (.error .distanceUsage))
      else give (distanceFrom start (some p))
    | _ => settled (.error (.error .distanceUsage))

/-- The features of a layer within a box. -/
def search (lookup : Option Lookup) (layer : String) (box : Box) : Evaluation (List Feature) :=
  match lookup with
  | none => pure []
  | some l => do
    note (.searched layer box)
    pure (l.within layer box)

/-- A candidate with its distance, if it has a centre. -/
def ranked (centre : Position) (f : Feature) : Option (Float × String) :=
  (centre? f).map fun c => (distance centre c, f.id)

/-- The candidates that count: other features that have a centre and are near
enough. -/
def candidates (self : String) (centre : Position) (limit : Float) (found : List Feature) :
    List (Float × String) :=
  ((found.filter (·.id != self)).filterMap (ranked centre)).filter (·.1 ≤ limit)

/-- The first of the nearest candidates, in the total order of doubles. -/
def nearest? : List (Float × String) → Option (Float × String)
  | [] => none
  | c :: rest =>
    match nearest? rest with
    | none => some c
    | some best => if Decimal.totalRank best.1 < Decimal.totalRank c.1 then some best else some c

/-- The limit that an argument sets: the number if it is finite, else the
usual one. -/
def distanceLimit (args : List Value) : Float :=
  match args with
  | _ :: v :: _ => if v.toNumber.isFinite then v.toNumber else closestDistance
  | _ => closestDistance

/-- `feat.closest(layer, distance)`: the id of the nearest other feature of a
layer. -/
def closestCall (lookup : Option Lookup) (self : String) (centre : Option Position)
    (box : Option Box) (args : List Value) : Evaluation Value :=
  match args, centre, box with
  | .str layer :: _, some start, some around => do
    let limit := distanceLimit args
    let found ← search lookup layer (around.widen (limit / degreeInMetres))
    match nearest? (candidates self start limit found) with
    | some best => give (.str best.2)
    | none => give .undefined
  | _, _, _ => give .undefined

/-- Whether a feature has a box that intersects another. -/
def touches (box : Box) (f : Feature) : Bool := (box? f).any (·.intersects box)

/-- `feat.overlapWith(layer)`: the ids of the other features of a layer whose
boxes intersect that of the feature. -/
def overlapCall (lookup : Option Lookup) (self : String) (box : Option Box)
    (args : List Value) : Evaluation Value :=
  match args, box with
  | .str layer :: _, some around => do
    let found ← search lookup layer around
    let others := (found.filter (·.id != self)).filter (touches around)
    give (.list (others.map fun f => .str f.id))
  | _, _ => give (.list [])

/-- The standard methods of a feature with the given centre and box. -/
def spatial (lookup : Option Lookup) (centre : Option Position) (box : Option Box) :
    FeatureMethods :=
  ⟨fun view name args =>
    match name with
    | "get" => some (get args)
    | "distanceTo" => some (distanceCall lookup centre args)
    | "closest" => some (closestCall lookup view.id centre box args)
    | "overlapWith" => some (overlapCall lookup view.id box args)
    | _ => none⟩

end FeatureMethods

/-- The standard methods, measured from the geometry that the feature has when
they are attached. -/
def MethodSource.standard : MethodSource :=
  ⟨fun surroundings view =>
    .done (.ok (.ok (FeatureMethods.spatial surroundings.lookup
      (view.geometry.bind Geometry.centre?) (view.geometry.bind Geometry.box?))))⟩

end DerivedTags
