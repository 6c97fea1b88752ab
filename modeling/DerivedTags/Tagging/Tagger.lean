import DerivedTags.Tagging.Pass
import DerivedTags.Tagging.Standard

/-!
# The tagger

A tagger owns the derivations, the source of methods and the compiled tags,
and runs passes with them. Tags stay compiled from one pass to the next. A
panic while the tags of a layer are compiled ends the pass before it begins.
-/

namespace DerivedTags

open DerivedTags.Snippet (FunctionTable Panic)

/-- A tagger with everything it owns. -/
structure Tagger where
  /-- The derivations. -/
  registry : Registry
  /-- What attaches methods. -/
  methods : MethodSource
  /-- The compiled tags of layers. -/
  compiler : TagCompiler

namespace Tagger

/-- A tagger with a registry, the standard methods and the standard
functions. -/
def start (registry : Registry) : Tagger := ⟨registry, .standard, .start .standard⟩

/-- The tagger with another source of methods. -/
def withMethods (t : Tagger) (methods : MethodSource) : Tagger := { t with methods }

/-- The tagger with another function table. What was compiled is dropped. -/
def withFunctions (t : Tagger) (functions : FunctionTable) : Tagger :=
  { t with compiler := .start functions }

/-- What comes of a pass. -/
structure Outcome where
  /-- Whether a feature changed, or the panic that ended the pass. -/
  result : Except Panic Bool
  /-- The tagger afterwards. -/
  tagger : Tagger
  /-- The features afterwards. -/
  features : List Feature

/-- Compute all keys of the features of a layer. -/
def run (t : Tagger) (features : List Feature) (surroundings : Surroundings) (layer : Layer)
    (store : Option Store) (options : Options) : StateM Session Outcome := do
  if features.isEmpty then pure ⟨.ok false, t, features⟩
  else do
    let (prepared, compiler) ← t.compiler.prepare layer
    let after : Tagger := { t with compiler }
    match prepared with
    | .error panic => pure ⟨.error panic, after, features⟩
    | .ok tags => do
      let pass : Pass := ⟨t.registry.allowed options, tags, t.methods, surroundings, layer,
        store, options.evaluateStrict⟩
      let (result, visited) ← pass.visitAll features
      pure ⟨result, after, visited⟩

/-- Take a batch of a layer that has come to rest. A layer without source gets
none. -/
def takeBatch (t : Tagger) (layer : Layer) (features : List Feature)
    (surroundings : Surroundings) (store : Option Store) : StateM Session Outcome := do
  if layer.source.isNone || features.isEmpty then pure ⟨.ok false, t, features⟩
  else do
    writeLine (.batchReceived layer.id features.length)
    t.run features surroundings layer store .default

end Tagger

end DerivedTags
