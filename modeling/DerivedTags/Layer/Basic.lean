import DerivedTags.Json.Fields
import DerivedTags.Layer.Definition

/-!
# Layers and layouts

A layer names the calculated tags of the features that match its source; a
layout is a list of layers. In their JSON forms members of other names are
passed over, and null stands for nothing only where a member is optional.
-/

namespace DerivedTags

/-- A layer. -/
structure Layer where
  /-- The id of the layer. -/
  id : String
  /-- Where its features come from; only whether there is a source counts. -/
  source : Option Json
  /-- Its calculated tags in order. -/
  calculatedTags : List Layer.Definition

/-- A list of layers. -/
structure Layout where
  /-- The id of the layout. -/
  id : String
  /-- Its layers in order. -/
  layers : List Layer

namespace Layer

/-- A layer with a source and no calculated tags. -/
def named (id : String) : Layer := ⟨id, some (.obj []), []⟩

/-- Read a source: null is none. -/
def sourceOf? : Json → Option (Option Json)
  | .null => some none
  | v => some (some v)

/-- Read the JSON form. -/
def ofJson? (j : Json) : Option Layer := do
  let members ← Json.membersOf? ["id", "source", "calculatedTags"] j
  let id ← (members.lookup "id").bind Json.text?
  let source ← Json.field? members "source" none sourceOf?
  let tags ← Json.field? members "calculatedTags" [] (Json.itemsOf? Definition.ofJson?)
  some ⟨id, source, tags⟩

/-- The JSON form. -/
def toJson (l : Layer) : Json :=
  .obj [("calculatedTags", .arr (l.calculatedTags.map Definition.toJson)), ("id", .str l.id),
    ("source", l.source.getD .null)]

end Layer

namespace Layout

/-- The layout without layers and without a name. -/
def empty : Layout := ⟨"", []⟩

/-- The first layer with an id. -/
def find? (l : Layout) (id : String) : Option Layer := l.layers.find? (·.id == id)

/-- Read the JSON form. -/
def ofJson? (j : Json) : Option Layout := do
  let members ← Json.membersOf? ["id", "layers"] j
  let id ← (members.lookup "id").bind Json.text?
  let layers ← Json.field? members "layers" [] (Json.itemsOf? Layer.ofJson?)
  some ⟨id, layers⟩

/-- The JSON form. -/
def toJson (l : Layout) : Json :=
  .obj [("id", .str l.id), ("layers", .arr (l.layers.map Layer.toJson))]

end Layout

end DerivedTags
