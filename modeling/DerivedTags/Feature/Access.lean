import DerivedTags.Feature.Basic
import DerivedTags.Journal.Session

/-!
# Reading deferred properties

A deferred property is computed at every read. While it is computed, a read
of the same property gives nothing, so that every read ends: computations
nest at most as deep as there are deferred properties.
-/

namespace DerivedTags

open DerivedTags.Snippet (Panic)

/-- Run a computation, its questions answered in the session. -/
def Reading.run {α : Type} (answer : String → StateM Session Answer) :
    Reading α → StateM Session α
  | .done a => pure a
  | .ask key next => do
    let a ← answer key
    (next a).run answer
  | .tell e next => do
    modify (·.addEvent e)
    next.run answer

/-- Compute a deferred property, unless it is being computed already. -/
def Deferred.evaluate (answer : String → StateM Session Answer) (view : View) (d : Deferred) :
    StateM Session Answer := do
  let s ← get
  if d.id ∈ s.evaluating then pure (.ok none)
  else do
    modify (·.enter d.id)
    let a ← (d.compute view).run answer
    modify (·.leave d.id)
    pure a

namespace Feature

/-- Read a property with computations nested at most so deep. -/
def getWithin (f : Feature) : Nat → String → StateM Session Answer
  | 0, key => pure (.ok (f.properties.concrete? key))
  | depth + 1, key =>
    match f.properties.slot? key with
    | none => pure (.ok none)
    | some (.concrete v) => pure (.ok (some v))
    | some (.deferred d) => d.evaluate (f.getWithin depth) f.view

/-- Read a property. Distinct deferred properties bound the nesting. -/
def get (f : Feature) (key : String) : StateM Session Answer :=
  f.getWithin f.properties.deferredKeys.length key

/-- Run a computation over the feature. -/
def run {α : Type} (f : Feature) (r : Reading α) : StateM Session α := r.run f.get

/-- Compute a deferred property once and keep its value; without a value the
property goes. After a panic everything stays as it was. -/
def force (f : Feature) (key : String) : StateM Session (Answer × Feature) :=
  match f.properties.slot? key with
  | none => pure (.ok none, f)
  | some (.concrete v) => pure (.ok (some v), f)
  | some (.deferred _) => do
    match ← f.get key with
    | .ok (some v) => pure (.ok (some v), f.set key (.concrete v))
    | .ok none => pure (.ok none, f.erase key)
    | .error p => pure (.error p, f)

/-- Force keys one after the other, up to the first panic. -/
def forceKeys (f : Feature) : List String → StateM Session (Except Panic Unit × Feature)
  | [] => pure (.ok (), f)
  | key :: rest => do
    let (a, g) ← f.force key
    match a with
    | .ok _ => g.forceKeys rest
    | .error p => pure (.error p, g)

/-- Force all properties that are deferred now. -/
def forceAll (f : Feature) : StateM Session (Except Panic Unit × Feature) :=
  f.forceKeys f.properties.deferredKeys

end Feature

end DerivedTags
