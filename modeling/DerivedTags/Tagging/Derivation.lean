import DerivedTags.Feature.Access
import DerivedTags.Layer.Settings
import DerivedTags.Tagging.Surroundings

/-!
# Derivations

A derivation is a rule that writes certain keys of a feature. It reads the
feature and proposes edits together with a verdict: whether it counts as a
change, or why it went wrong. Edits proposed before things went wrong still
take place.
-/

namespace DerivedTags

open DerivedTags.Snippet (Panic)

/-- One step of writing to a feature. -/
inductive Edit where
  /-- Put a value under a key. -/
  | insert (key : String) (value : Json)
  /-- Put a computation under a key. -/
  | defer (key : String) (compute : View → Reading Answer)
  /-- Remove a key. -/
  | remove (key : String)

/-- What a derivation wants to be done and how it ended. -/
structure Proposal where
  /-- The edits in order. -/
  edits : List Edit
  /-- Whether the feature changed, an error, or a panic. -/
  verdict : Except Panic (Except TagError Bool)

/-- A rule that writes keys of a feature. -/
structure Derivation where
  /-- The keys it writes. -/
  keys : List String
  /-- Whether it leaves computations instead of values. -/
  isLazy : Bool
  /-- Whether its values depend on the date. -/
  includesDates : Bool
  /-- What it proposes for a feature of a layer at a moment. -/
  propose : Layer → Surroundings → Moment → Feature → Reading Proposal

/-- Derivations in the order in which they run. -/
abbrev Registry := List Derivation

/-- The derivations that the options allow, in order. -/
def Registry.allowed (r : Registry) (options : Options) : Registry :=
  r.filter fun d => if d.includesDates then options.includeDates else options.includeNonDates

/-- Carry out one edit. -/
def Edit.apply (f : Feature) : Edit → StateM Session Feature
  | .insert key value => pure (f.set key (.concrete value))
  | .defer key compute => do
    let id ← newDeferred
    pure (f.set key (.deferred ⟨id, compute⟩))
  | .remove key => pure (f.erase key)

/-- Carry out edits in order. -/
def Edit.applyAll : List Edit → Feature → StateM Session Feature
  | [], f => pure f
  | e :: rest, f => do
    let g ← e.apply f
    applyAll rest g

/-- Run a derivation on a feature, its errors and panics left to the caller. -/
def Derivation.run (d : Derivation) (layer : Layer) (surroundings : Surroundings) (f : Feature) :
    StateM Session (Except Panic (Except TagError Bool) × Feature) := do
  let reading ← tick
  let proposal ← f.run (d.propose layer surroundings (surroundings.clock reading) f)
  let g ← Edit.applyAll proposal.edits f
  pure (proposal.verdict, g)

/-- Run a derivation on a feature. An error or panic is logged and counts as
no change. -/
def Derivation.runContained (d : Derivation) (layer : Layer) (surroundings : Surroundings)
    (f : Feature) : StateM Session (Bool × Feature) := do
  let (verdict, g) ← d.run layer surroundings f
  match verdict with
  | .ok (.ok changed) => pure (changed, g)
  | .ok (.error e) => do
    writeLine (.derivationFailed e)
    pure (false, g)
  | .error p => do
    writeLine (.derivationFailed (.ofDerivation d.keys p.message))
    pure (false, g)

end DerivedTags
