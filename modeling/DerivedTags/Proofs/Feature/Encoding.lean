import DerivedTags.Feature.Basic
import DerivedTags.Proofs.Feature.Twins
import DerivedTags.Proofs.Feature.UnderComputation
import DerivedTags.Proofs.Json.Members

/-!
# Features through their JSON form

A feature whose coordinates are finite can be read from its JSON form. It comes back with its
id, its geometry and its concrete properties, these in the order of their keys, and has the
same JSON form again.
-/

namespace DerivedTags

namespace Json

/-- Items that are read as what they were written from are read in an array as well. -/
theorem itemsOf?_map {α : Type} {read : Json → Option α} {write : α → Json} {xs : List α}
    (back : ∀ x ∈ xs, read (write x) = some x) : itemsOf? read (.arr (xs.map write)) = some xs := by
  change (xs.map write).mapM read = some xs
  induction xs with
  | nil => rfl
  | cons x rest ih =>
    obtain ⟨first, others⟩ := List.forall_mem_cons.mp back
    rw [List.map_cons, List.mapM_cons, first, ih others]
    rfl

end Json

namespace Geo

/-- A position with finite coordinates. -/
def Position.Finite (p : Position) : Prop := p.lon.isFinite = true ∧ p.lat.isFinite = true

/-- A finite position is read from its JSON form. -/
theorem Position.ofJson?_toJson {p : Position} (finite : p.Finite) : ofJson? p.toJson = some p := by
  rw [toJson, Json.ofFloat, Json.ofFloat, if_pos finite.1, if_pos finite.2]
  rfl

namespace Geometry

/-- A line of finite positions is read from its JSON form. -/
theorem lineOf?_lineToJson {line : List Position} (finite : ∀ p ∈ line, p.Finite) :
    lineOf? (lineToJson line) = some line :=
  Json.itemsOf?_map fun p mem => Position.ofJson?_toJson (finite p mem)

/-- Lines of finite positions are read from their JSON form. -/
theorem linesOf?_linesToJson {lines : List (List Position)}
    (finite : ∀ p ∈ lines.flatten, p.Finite) : linesOf? (linesToJson lines) = some lines :=
  Json.itemsOf?_map fun _ line => lineOf?_lineToJson fun p mem =>
    finite p (List.mem_flatten_of_mem line mem)

/-- The coordinates of a geometry are read as that geometry. -/
theorem ofCoordinates?_coordinates {g : Geometry} (finite : ∀ p ∈ g.positions, p.Finite) :
    ofCoordinates? g.kind g.coordinates = some g := by
  cases g with
  | point p =>
    exact congrArg (Option.map _) (Position.ofJson?_toJson (finite p List.mem_cons_self))
  | multiPoint ps => exact congrArg (Option.map _) (lineOf?_lineToJson finite)
  | lineString line => exact congrArg (Option.map _) (lineOf?_lineToJson finite)
  | multiLineString lines => exact congrArg (Option.map _) (linesOf?_linesToJson finite)
  | polygon rings => exact congrArg (Option.map _) (linesOf?_linesToJson finite)
  | multiPolygon polygons =>
    have each : Json.itemsOf? linesOf? (.arr (polygons.map linesToJson)) = some polygons :=
      Json.itemsOf?_map fun _ rings => linesOf?_linesToJson fun p mem => by
        obtain ⟨line, among, inside⟩ := List.mem_flatten.mp mem
        exact finite p (List.mem_flatten_of_mem (List.mem_flatten_of_mem rings among) inside)
    exact congrArg (Option.map _) each

/-- A geometry with finite positions is read from its JSON form. -/
theorem ofJson?_toJson {g : Geometry} (finite : ∀ p ∈ g.positions, p.Finite) :
    ofJson? g.toJson = some g := ofCoordinates?_coordinates finite

end Geometry

end Geo

namespace Properties

variable {members : List (String × Json)} (nodup : (members.map Prod.fst).Nodup)

include nodup

/-- Members with different keys become properties in their order. -/
theorem entries_ofMembers :
    (ofMembers members).entries = members.map fun m => (m.1, .concrete m.2) := by
  induction members using List.reverseRecOn with
  | nil => rfl
  | append_singleton front last ih =>
    rw [List.map_append, List.nodup_append] at nodup
    obtain ⟨distinct, -, apart⟩ := nodup
    have before := ih distinct
    have absent : (ofMembers front).contains last.1 = false := by
      rw [Bool.eq_false_iff, ne_eq, contains_iff_mem_keys, keys, before, List.map_map]
      exact fun mem => apart last.1 mem last.1 List.mem_cons_self rfl
    have added : ofMembers (front ++ [last]) = (ofMembers front).set last.1 (.concrete last.2) :=
      List.foldl_append
    rw [added, entries_set_of_absent absent, before, List.map_append]
    rfl

/-- Under the key of a member stands its value. -/
theorem slot?_ofMembers (key : String) :
    (ofMembers members).slot? key = (members.lookup key).map .concrete := by
  rw [slot?, entries_ofMembers nodup]
  exact Json.lookup_map_snd Slot.concrete members key

/-- Members with different keys are the concrete properties that were made of them. -/
theorem concrete_ofMembers : (ofMembers members).concrete = members := by
  rw [concrete, entries_ofMembers nodup, List.filterMap_map]
  exact List.filterMap_some

end Properties

namespace Feature

/-- A geometry with finite coordinates, or none, is read from the JSON form of a feature. -/
theorem geometryOf?_geometryJson {geometry : Option Geo.Geometry}
    (finite : ∀ g, geometry = some g → ∀ p ∈ g.positions, p.Finite)
    (rest : List (String × Json)) :
    geometryOf? (("geometry", geometryJson geometry) :: rest) = some geometry := by
  cases geometry with
  | none => rfl
  | some g => exact congrArg (Option.map some) (Geo.Geometry.ofJson?_toJson (finite g rfl))

/-- Features survive their JSON form. A feature whose geometry, if any, has finite coordinates
only is read from its JSON form. What is read has the same id and the same geometry, under
each key the concrete value that stood there and nothing else, and the same JSON form. -/
theorem ofJson_toJson_of_finite (f : Feature)
    (finite : ∀ g, f.geometry = some g → ∀ p ∈ g.positions,
      p.lon.isFinite = true ∧ p.lat.isFinite = true) :
    ∃ g, Feature.ofJson f.toJson = .ok g ∧ g.id = f.id ∧ g.geometry = f.geometry ∧
      (∀ key, g.properties.slot? key = (f.properties.concrete? key).map .concrete) ∧
      g.toJson = f.toJson := by
  obtain ⟨sorted, same, ordered, found⟩ := Json.exists_object f.properties.nodup_concrete
  have distinct : (sorted.map Prod.fst).Nodup := ordered.imp ne_of_lt
  have written : f.properties.toJson = .obj sorted := same
  have again : (Properties.ofMembers sorted).toJson = .obj sorted := by
    rw [Properties.toJson, Properties.concrete_ofMembers distinct, Json.object_of_ordered ordered]
  refine ⟨⟨f.id, f.geometry, .ofMembers sorted⟩, ?_, rfl, rfl, fun key => ?_, ?_⟩
  · have geometry := geometryOf?_geometryJson finite [("id", .str f.id),
      ("properties", f.properties.toJson), ("type", .str "Feature")]
    have properties : propertiesOf? [("geometry", geometryJson f.geometry), ("id", .str f.id),
        ("properties", f.properties.toJson), ("type", .str "Feature")] = some sorted := by
      rw [written]
      rfl
    rw [toJson, ofJson, Json.membersOf?]
    dsimp only
    rw [ofMembers, geometry, properties]
    rfl
  · rw [Properties.slot?_ofMembers distinct, found, Properties.lookup_concrete]
  · rw [toJson, toJson, again, written]

/-- A feature with an empty polygon and an empty ring, a computed length, and a number among
its properties under the key of an id. -/
def towpath : Feature where
  id := "way/7"
  geometry := some (.multiPolygon [[], [[], [⟨4.5, -51.25⟩]]])
  properties := {
    entries := [("name", .concrete (.str "Towpath")),
      ("_length", .deferred ⟨1, fun _ => .done (.ok none)⟩), ("id", .concrete (.num (.int 3)))]
    nodup_keys := by decide }

/-- The towpath comes back with its own id, its other id among its properties, and without the
length that was not computed. -/
theorem ofJson_toJson_towpath : ∃ g, Feature.ofJson towpath.toJson = .ok g ∧ g.id = "way/7" ∧
    g.geometry = some (.multiPolygon [[], [[], [⟨4.5, -51.25⟩]]]) ∧
    g.properties.slot? "id" = some (.concrete (.num (.int 3))) ∧
    g.properties.slot? "_length" = none ∧ g.toJson = towpath.toJson := by
  have finite : ∀ g, towpath.geometry = some g → ∀ p ∈ g.positions,
      p.lon.isFinite = true ∧ p.lat.isFinite = true := by
    rintro g ⟨⟩ p mem
    obtain rfl := List.mem_singleton.mp mem
    decide
  obtain ⟨g, decoded, id, geometry, slots, again⟩ := ofJson_toJson_of_finite towpath finite
  exact ⟨g, decoded, id, geometry, slots "id", slots "_length", again⟩

end Feature

end DerivedTags
