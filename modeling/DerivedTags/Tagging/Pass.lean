import DerivedTags.Layer.Settings
import DerivedTags.Tagging.Derivation
import DerivedTags.Tagging.LayerTags

/-!
# A pass over a batch

A pass visits the features of a batch one after the other. On each it runs
the derivations whose keys are missing, then the calculated tags of the
layer, and tells the store if anything changed. Errors and panics of
derivations, methods and the store are contained and logged. A panic while
properties are forced ends the pass; what was done by then stays.
-/

namespace DerivedTags

open DerivedTags.Snippet (Panic)

/-- What a pass works with. -/
structure Pass where
  /-- The derivations that run. -/
  derivations : Registry
  /-- The tags of the layer, if it has any. -/
  tags : Option LayerTags
  /-- What attaches methods. -/
  methods : MethodSource
  /-- What can be consulted. -/
  surroundings : Surroundings
  /-- The layer of the batch. -/
  layer : Layer
  /-- The store to be told of changes. -/
  store : Option Store
  /-- Whether nothing may stay deferred. -/
  evaluateStrict : Bool

namespace Pass

/-- Run one derivation on a feature that had the keys `before` when its visit
began. It is skipped if all its keys are there; a lazy one also if they were
there before. The result says whether it made a change. -/
def derive (p : Pass) (before : List String) (d : Derivation) (f : Feature) :
    StateM Session (Except Panic Bool × Feature) := do
  if d.keys.all f.properties.contains then pure (.ok false, f)
  else if d.isLazy then
    if d.keys.all before.contains then pure (.ok false, f)
    else do
      let (_, g) ← d.runContained p.layer p.surroundings f
      if p.evaluateStrict then do
        let (forced, h) ← g.forceKeys d.keys
        pure (forced.map fun _ => true, h)
      else pure (.ok true, g)
  else do
    let (changed, g) ← d.runContained p.layer p.surroundings f
    pure (.ok changed, g)

/-- Run derivations one after the other, up to the first panic. All of them
run, even once a change is known. -/
def deriveAll (p : Pass) (before : List String) :
    List Derivation → Bool → Feature → StateM Session (Except Panic Bool × Feature)
  | [], changed, f => pure (.ok changed, f)
  | d :: rest, changed, f => do
    let (result, g) ← p.derive before d f
    match result with
    | .ok more => p.deriveAll before rest (changed || more) g
    | .error panic => pure (.error panic, g)

/-- Run the calculated tags of the layer. Running them at all is a change. -/
def runTags (p : Pass) (changed : Bool) (f : Feature) :
    StateM Session (Except Panic Bool × Feature) := do
  match p.tags with
  | none => pure (.ok changed, f)
  | some tags => do
    let g ← tags.run p.methods p.surroundings f
    if p.evaluateStrict then do
      let (forced, h) ← g.forceAll
      pure (forced.map fun _ => true, h)
    else pure (.ok true, g)

/-- Tell the store of a change. What goes wrong is logged. -/
def tell (store : Store) (id : String) : StateM Session Unit := do
  noteCall (.pinged id)
  match store.ping id with
  | .ok (.ok ()) => pure ()
  | .ok (.error e) => writeLine (.pingFailed e)
  | .error panic => writeLine (.pingFailed (.notification id panic.message))

/-- Visit one feature. The result says whether it changed. -/
def visit (p : Pass) (f : Feature) : StateM Session (Except Panic Bool × Feature) := do
  let (derived, g) ← p.deriveAll f.properties.keys p.derivations false f
  match derived with
  | .error panic => pure (.error panic, g)
  | .ok changed => do
    let (tagged, h) ← p.runTags changed g
    match tagged, p.store with
    | .ok true, some store => do
      tell store h.id
      pure (.ok true, h)
    | result, _ => pure (result, h)

/-- Visit features one after the other, up to the first panic. The result
says whether any of them changed. -/
def visitAll (p : Pass) :
    List Feature → StateM Session (Except Panic Bool × List Feature)
  | [] => pure (.ok false, [])
  | f :: rest => do
    let (result, g) ← p.visit f
    match result with
    | .error panic => pure (.error panic, g :: rest)
    | .ok changed => do
      let (others, visited) ← p.visitAll rest
      pure (others.map fun more => changed || more, g :: visited)

end Pass

end DerivedTags
