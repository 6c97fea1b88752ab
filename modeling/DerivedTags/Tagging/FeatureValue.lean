import DerivedTags.Tagging.FeatureMethods

/-!
# What a snippet sees of a feature

Snippets see one binding, `feat`. As a value it shows concrete properties
only; naming a single key reads that property even if it is deferred. Paths
are resolved without building the value of the whole feature.
-/

namespace DerivedTags

open DerivedTags.Snippet

namespace View

/-- The geometry as a value, null if there is none. -/
def geometryValue (v : View) : Value := .ofJson (Feature.geometryJson v.geometry)

/-- The concrete properties as a value. -/
def propertiesValue (v : View) : Value := .ofJson (Json.object v.concrete)

/-- The whole feature as a value. -/
def value (v : View) : Value :=
  .object none [("geometry", v.geometryValue), ("id", .str v.id),
    ("properties", v.propertiesValue), ("type", .str "Feature")]

/-- A property that may be missing as a value. -/
def propertyValue (p : Option Json) : Value :=
  match p with
  | some v => .ofJson v
  | none => .undefined

/-- The value at a path below `feat`. -/
def resolve (v : View) : Path → Evaluation Value
  | [] => pure v.value
  | name :: rest =>
    match name, rest with
    | "properties", [] => pure v.propertiesValue
    | "properties", key :: inner => do
      let p ← FeatureMethods.property key
      settled ((propertyValue p).follow inner)
    | "id", rest => settled ((Value.str v.id).follow rest)
    | "type", rest => settled ((Value.str "Feature").follow rest)
    | "geometry", rest => settled (v.geometryValue.follow rest)
    | _, rest => settled (Value.undefined.follow rest)

/-- The scope of a snippet over a feature. -/
def scope (v : View) (methods : FeatureMethods) : Scope Reading where
  resolve
    | [] => pure .undefined
    | root :: rest =>
      if root == "feat" then v.resolve rest
      else settled (.error (.error (.notDefined root)))
  call
    | [root, name], args => if root == "feat" then methods.call v name args else none
    | _, _ => none

end View

end DerivedTags
