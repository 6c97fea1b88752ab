import DerivedTags.Proofs.Feature.Nesting
import DerivedTags.Proofs.Feature.Twins
import DerivedTags.Proofs.Snippet.Conversion
import DerivedTags.Proofs.Tagging.NamedReads
import DerivedTags.Proofs.Tagging.TagSteps

/-!
# Paths into a feature and the feature as a whole

A path below `feat` is resolved member by member without making a value of the whole
feature. It leads where following it from that value would lead, errors included, unless
it names a deferred property: the whole value does not show one, and naming it computes it.
-/

namespace DerivedTags

open DerivedTags.Snippet

/-- The JSON form of a position is one that a snippet can hold. -/
theorem Geo.Position.representable_toJson (p : Position) : p.toJson.Representable :=
  .arr (by simp [Json.representable_ofFloat])

/-- So is that of a geometry, whatever its coordinates are. -/
theorem Geo.Geometry.representable_toJson (g : Geometry) : g.toJson.Representable := by
  have line (ps : List Position) : (lineToJson ps).Representable :=
    Json.representable_arr_map Position.representable_toJson ps
  have lines (pss : List (List Position)) : (linesToJson pss).Representable :=
    Json.representable_arr_map line pss
  have coordinates : g.coordinates.Representable := by
    cases g with
    | point p => exact p.representable_toJson
    | multiPoint ps => exact line ps
    | lineString ps => exact line ps
    | multiLineString pss => exact lines pss
    | polygon pss => exact lines pss
    | multiPolygon psss => exact Json.representable_arr_map lines psss
  refine .obj (List.forall_mem_cons.mpr ⟨coordinates, ?_⟩)
  exact List.forall_mem_singleton.mpr (.str g.kind)

namespace View

variable (v : View)

/-- The whole feature as JSON. The geometry is the JSON form of its value. -/
def json (v : View) : Json :=
  .obj [("geometry", v.geometryValue.toJson), ("id", .str v.id),
    ("properties", Json.object v.concrete), ("type", .str "Feature")]

/-- A geometry stays as it is on its way through a value; a missing one stays null. -/
theorem toJson_geometryValue : v.geometryValue.toJson = Feature.geometryJson v.geometry := by
  refine Value.toJson_ofJson ?_
  cases v.geometry with
  | none => exact .null
  | some g => exact g.representable_toJson

/-- The whole feature as a value is its JSON converted. -/
theorem value_eq_ofJson : v.value = .ofJson v.json := by
  rw [json, toJson_geometryValue]
  rfl

/-- What a key of the concrete properties reads as in the whole feature. -/
theorem member_propertiesValue (nodup : (v.concrete.map Prod.fst).Nodup) (key : String) :
    v.propertiesValue.member key = .ok (propertyValue (v.concrete.lookup key)) := by
  rw [propertiesValue, Value.member_ofJson_object nodup]
  cases v.concrete.lookup key <;> rfl

/-- A member that the whole feature does not have is undefined. -/
theorem member_value_other {name : String}
    (other : name ∉ ["properties", "id", "type", "geometry"]) :
    v.value.member name = .ok .undefined := by
  simp only [List.mem_cons, List.not_mem_nil, or_false, not_or] at other
  obtain ⟨properties, id, type, geometry⟩ := other
  simp [value, Value.member, List.lookup_cons, beq_false_of_ne, properties, id, type, geometry]

end View

namespace Feature

/-- The JSON of the whole feature that snippets see is the JSON form of the feature. -/
theorem json_view (f : Feature) : f.view.json = f.toJson := by
  rw [View.json, View.toJson_geometryValue]
  rfl

/-- What a snippet gets for a path in the scope of the feature. -/
def resolve (f : Feature) (methods : FeatureMethods) (path : Path) :
    StateM Session (Except Stop Value) :=
  f.run ((f.view.scope methods).resolve path).run

/-- A path below the feature that names a deferred property or leads into one. -/
inductive NamesDeferred (f : Feature) : Path → Prop where
  /-- The property is under its key. -/
  | intro {key : String} {d : Deferred} (slot : f.properties.slot? key = some (.deferred d))
      (rest : Path) : NamesDeferred f ("properties" :: key :: rest)

variable (f : Feature) (methods : FeatureMethods) (s : Session)

/-- Below the feature a path is resolved in its view. -/
theorem resolve_feat (rest : Path) :
    f.resolve methods ("feat" :: rest) s = f.run (f.view.resolve rest).run s := rfl

/-- What is settled needs no session. -/
theorem run_settled (result : Except Stop Value) :
    f.run (settled result : Evaluation Value).run s = (result, s) := by
  cases result <;> rfl

/-- A property that is asked for is read in the session. -/
theorem run_ask {α : Type} (key : String) (next : Answer → Reading α) :
    f.run (.ask key next) s = f.run (next (f.get key s).1) (f.get key s).2 := rfl

/-- A property that is named is read, and the path is followed from its value. A panic is
what the path ends in then. -/
theorem resolve_property (key : String) (rest : Path) :
    f.resolve methods ("feat" :: "properties" :: key :: rest) s =
      match f.get key s with
      | (.ok p, t) => ((View.propertyValue p).follow rest, t)
      | (.error panic, t) => (.error (.panic panic), t) := by
  refine (run_ask f s key _).trans ?_
  rcases f.get key s with ⟨panic | p, t⟩
  · rfl
  · exact f.run_settled t ((View.propertyValue p).follow rest)

/-- The whole feature is given as its JSON converted. -/
theorem resolve_whole : f.resolve methods ["feat"] s = (.ok (.ofJson f.view.json), s) := by
  rw [← View.value_eq_ofJson]
  rfl

/-- A property that is not deferred reads as the whole feature shows it. -/
theorem get_shown {key : String} (plain : ∀ d, f.properties.slot? key ≠ some (.deferred d)) :
    f.get key s = (.ok (f.view.concrete.lookup key), s) := by
  have concrete : f.view.concrete.lookup key = f.properties.concrete? key :=
    f.properties.lookup_concrete key
  rw [concrete]
  exact getWithin_plain plain _

/-- A path that does not name a deferred property leads where it leads from the value of
the whole feature, to the same value or the same error. -/
theorem resolve_below {rest : Path} (shown : ¬f.NamesDeferred rest) :
    f.resolve methods ("feat" :: rest) s = (f.view.value.follow rest, s) := by
  match rest with
  | [] => rfl
  | name :: inner =>
    by_cases known : name ∈ ["properties", "id", "type", "geometry"]
    · simp only [List.mem_cons, List.not_mem_nil, or_false] at known
      rcases known with rfl | rfl | rfl | rfl
      · match inner with
        | [] => rfl
        | key :: deeper =>
          have plain : ∀ d, f.properties.slot? key ≠ some (.deferred d) :=
            fun d slot => shown (.intro slot deeper)
          have whole : f.view.value.follow ("properties" :: key :: deeper) =
              f.view.propertiesValue.follow (key :: deeper) := rfl
          rw [resolve_property, f.get_shown s plain, whole, Value.follow_cons,
            View.member_propertiesValue _ f.properties.nodup_concrete]
          rfl
      · exact f.run_settled s _
      · exact f.run_settled s _
      · exact f.run_settled s _
    · rw [resolve_feat, View.resolve_other f.view inner known, Value.follow_cons,
        View.member_value_other f.view known]
      exact f.run_settled s _

/-- Paths into a feature, in one place. The path `feat` gives the JSON form of the feature
as a value: geometry, id, concrete properties and type. A longer path gives what following
its rest from there gives, value for value and error for error, whether it leads to a
property, to a member that is missing, or into a text, an array or a missing value, and
changes nothing, unless it names a deferred property. Then the property is computed, and
the rest of the path is followed from what it gives, from undefined if it gives nothing; a
panic of the computation ends it. Any other root is not defined. -/
theorem resolve_eq_follow :
    f.resolve methods ["feat"] s = (.ok (.ofJson f.view.json), s) ∧
      f.view.json = f.toJson ∧
      (∀ rest, ¬f.NamesDeferred rest →
        f.resolve methods ("feat" :: rest) s =
          ((f.resolve methods ["feat"] s).1 >>= (·.follow rest), s)) ∧
      (∀ key d rest, f.properties.slot? key = some (.deferred d) →
        f.resolve methods ("feat" :: "properties" :: key :: rest) s =
          match d.evaluate f.get f.view s with
          | (.ok p, t) => ((View.propertyValue p).follow rest, t)
          | (.error panic, t) => (.error (.panic panic), t)) ∧
      ∀ root rest, root ≠ "feat" →
        f.resolve methods (root :: rest) s = (.error (.error (.notDefined root)), s) ∧
          (EvalFailure.notDefined root).message = root ++ " is not defined" := by
  refine ⟨f.resolve_whole methods s, f.json_view, fun rest shown => ?_,
    fun key d rest slot => ?_, fun root rest other => ⟨?_, rfl⟩⟩
  · rw [f.resolve_below methods s shown, resolve_whole, ← View.value_eq_ofJson]
    rfl
  · rw [resolve_property, get_deferred slot]
  · have no : ¬(root == "feat") = true := mt beq_iff_eq.mp other
    simp only [resolve, View.scope, if_neg no]
    exact f.run_settled s _

/-- A shop at a place, with an object among its properties and one that is computed. -/
def kiosk : Feature :=
  let plain : Feature := ⟨"node/1", some (.point ⟨4.5, 50.0⟩), .empty⟩
  let late : Deferred := ⟨0, fun v => .ask "tags" fun _ => .done (.ok (some (.arr [.str v.id])))⟩
  (plain.set "tags" (.concrete (.obj [("shop", .str "books")]))).set "_late" (.deferred late)

/-- A path into the object leads where it leads from the whole shop, a path into the
computed property leads into what is computed, and another root is not defined. -/
theorem kiosk_paths : ¬kiosk.NamesDeferred ["properties", "tags", "shop"] ∧
    kiosk.resolve .empty ["feat", "properties", "tags", "shop"] (.start 0) =
      (.ok (.str "books"), .start 0) ∧
    (kiosk.resolve .empty ["feat", "properties", "_late", "0"] (.start 0)).1 =
      .ok (.str "node/1") ∧
    (kiosk.resolve .empty ["window", "location"] (.start 0)).1 =
      .error (.error (.notDefined "window")) := by
  have paths := resolve_eq_follow kiosk .empty (.start 0)
  have shown : ¬kiosk.NamesDeferred ["properties", "tags", "shop"] := by
    rintro ⟨slot, -⟩
    cases slot
  refine ⟨shown, ?_, ?_, ?_⟩
  · exact paths.2.2.1 _ shown
  · rw [paths.2.2.2.1 "_late" _ ["0"] rfl]
    rfl
  · rw [(paths.2.2.2.2 "window" ["location"] (by decide)).1]

end Feature

end DerivedTags
