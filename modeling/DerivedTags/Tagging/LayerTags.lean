import DerivedTags.Feature.Access
import DerivedTags.Snippet.Compiled
import DerivedTags.Tagging.FeatureValue

/-!
# Calculated tags of a layer

The snippets of a layer are compiled once and then run on each feature, in
the order of their definitions. A strict one stores its value as text or
removes its key; a lazy one leaves a property that runs it at every read. A
snippet that cannot be read fails whenever it would run.
-/

namespace DerivedTags

open DerivedTags.Snippet

/-- A snippet bound to its key. -/
structure CalculatedTag where
  /-- The functions it may call. -/
  functions : FunctionTable
  /-- The layer it belongs to. -/
  layer : String
  /-- The key it writes. -/
  key : String
  /-- Its code. -/
  source : String
  /-- Whether its value is stored. -/
  strict : Bool
  /-- The compiled snippet, or why there is none. -/
  compiled : Except Refusal Compiled

/-- The tags of a layer in order. -/
structure LayerTags where
  /-- The id of the layer. -/
  layer : String
  /-- Its tags. -/
  tags : List CalculatedTag

namespace CalculatedTag

/-- What a failure of the tag is reported with. -/
def failure (t : CalculatedTag) : TagFailure := ⟨t.layer, t.key, t.source, t.strict⟩

/-- A tag is text: a text as it is, any other value by its JSON text. Without
a value there is no tag. -/
def encoded : Value → Option Json
  | .undefined => none
  | .str s => some (.str s)
  | v => some (.str v.jsonText)

/-- The outcome of running the snippet, a failure by its message. -/
def outcome (t : CalculatedTag) (methods : FeatureMethods) (view : View) :
    Reading (Except String Value) :=
  match t.compiled with
  | .ok snippet =>
    (snippet.evaluate t.functions (view.scope methods)).bind fun result =>
      match result with
      | .ok v => .done (.ok v)
      | .error e => .done (.error e.message)
  | .error e => .done (.error e.message)

/-- The tag of a feature. A failure is let known and gives no tag. -/
def compute (t : CalculatedTag) (methods : FeatureMethods) (view : View) :
    Reading (Option Json) :=
  (t.outcome methods view).bind fun result =>
    match result with
    | .ok v => .done (encoded v)
    | .error cause => .tell (.failure t.failure cause) (.done none)

/-- Store a tag, or remove its key if there is none. -/
def store (key : String) (f : Feature) (tag : Option Json) : Feature :=
  match tag with
  | some v => f.set key (.concrete v)
  | none => f.erase key

/-- Run the tag on a feature. -/
def run (t : CalculatedTag) (methods : FeatureMethods) (f : Feature) : StateM Session Feature :=
  if t.strict then do
    let tag ← f.run (t.compute methods f.view)
    pure (store t.key f tag)
  else do
    let id ← newDeferred
    pure (f.set t.key
      (.deferred ⟨id, fun view => (t.compute methods view).bind fun tag => .done (.ok tag)⟩))

end CalculatedTag

namespace LayerTags

/-- The number of tags. -/
def size (l : LayerTags) : Nat := l.tags.length

/-- Run tags one after the other. -/
def runAll (methods : FeatureMethods) : List CalculatedTag → Feature → StateM Session Feature
  | [], f => pure f
  | t :: rest, f => do
    let g ← t.run methods f
    runAll methods rest g

/-- Attach methods to a feature and run all tags on it. Without methods the
tags are skipped, which is logged. Either way the feature counts as changed. -/
def run (l : LayerTags) (source : MethodSource) (surroundings : Surroundings) (f : Feature) :
    StateM Session Feature := do
  noteCall (.attached f.id)
  match ← f.run (source.attach surroundings f.view) with
  | .ok (.ok methods) => runAll methods l.tags f
  | .ok (.error e) => do
    writeLine (.tagsSkipped e)
    pure f
  | .error p => do
    writeLine (.tagsSkipped (.augmentation f.id p.message))
    pure f

end LayerTags

/-- Compiles the tags of layers and keeps them by layer id. What was compiled
first under an id stays. -/
structure TagCompiler where
  /-- The functions that snippets may call. -/
  functions : FunctionTable
  /-- What was compiled, by layer id. -/
  kept : List (String × LayerTags)
  /-- How often a layer was compiled. -/
  compilations : Nat

namespace TagCompiler

/-- A compiler that has compiled nothing. -/
def start (functions : FunctionTable) : TagCompiler := ⟨functions, [], 0⟩

/-- The tags of definitions in order; placeholders are left out. The first
snippet whose compilation breaks off ends all. -/
def tagsOf (functions : FunctionTable) (layer : String) :
    List Layer.Definition → Except Panic (List CalculatedTag)
  | [] => .ok []
  | d :: rest =>
    match d.snippet with
    | none => tagsOf functions layer rest
    | some source => do
      let compiled ← Compiled.ofText source
      let tags ← tagsOf functions layer rest
      .ok (⟨functions, layer, d.key, source, d.strict, compiled⟩ :: tags)

/-- Compile the definitions of a layer without keeping them. -/
def compile (c : TagCompiler) (layer : String) (definitions : List Layer.Definition) :
    StateM Session (Except Panic LayerTags × TagCompiler) := do
  let counted : TagCompiler := { c with compilations := c.compilations + 1 }
  match tagsOf c.functions layer definitions with
  | .ok tags => do
    writeLine (.compiled tags.length layer)
    pure (.ok ⟨layer, tags⟩, counted)
  | .error p => pure (.error p, counted)

/-- The tags of a layer, compiled at their first use. A layer without
definitions has none. -/
def prepare (c : TagCompiler) (layer : Layer) :
    StateM Session (Except Panic (Option LayerTags) × TagCompiler) := do
  if layer.calculatedTags.isEmpty then pure (.ok none, c)
  else
    match c.kept.lookup layer.id with
    | some kept => pure (.ok (some kept), c)
    | none => do
      let (result, counted) ← c.compile layer.id layer.calculatedTags
      match result with
      | .ok compiled =>
        pure (.ok (some compiled), { counted with kept := (layer.id, compiled) :: counted.kept })
      | .error p => pure (.error p, counted)

end TagCompiler

end DerivedTags
