import DerivedTags.Proofs.Feature.Twins
import DerivedTags.Proofs.Json.Members
import DerivedTags.Proofs.Tagging.TagSteps
import DerivedTags.Tagging.Standard

/-!
# Tags do not heed the order of properties

A snippet sees the properties of a feature as an object, whose members stand in the
order of their keys, or by their keys. So what a calculated tag computes with the
standard methods is the same whatever order the properties came in, and so is what a
standard derivation leaves to be computed.
-/

namespace DerivedTags

open DerivedTags.Snippet

variable {ordered : Prop} {v w : View}

namespace View.Alike

/-- Properties show as the same value. -/
theorem propertiesValue (alike : v.Alike ordered w) : w.propertiesValue = v.propertiesValue :=
  congrArg Value.ofJson (Json.object_perm alike.concrete alike.nodup)

/-- Geometries show as the same value. -/
theorem geometryValue (alike : v.Alike ordered w) : w.geometryValue = v.geometryValue := by
  simp only [View.geometryValue, alike.geometry]

/-- Paths lead to the same. -/
theorem resolve (alike : v.Alike ordered w) (path : Path) : w.resolve path = v.resolve path := by
  have value : w.value = v.value := by
    simp only [View.value, alike.id, alike.propertiesValue, alike.geometryValue]
  unfold View.resolve
  simp only [value, alike.id, alike.propertiesValue, alike.geometryValue]

/-- Snippets see the same with the standard methods. -/
theorem scope (alike : v.Alike ordered w) (lookup : Option Lookup)
    (centre : Option Geo.Position) (box : Option Geo.Box) :
    w.scope (.spatial lookup centre box) = v.scope (.spatial lookup centre box) := by
  have resolves : w.resolve = v.resolve := funext alike.resolve
  have calls : (FeatureMethods.spatial lookup centre box).call w =
      (FeatureMethods.spatial lookup centre box).call v := by
    simp only [FeatureMethods.spatial, alike.id]
  simp only [View.scope, resolves, calls]

/-- A tag computes the same with the standard methods. -/
theorem compute (alike : v.Alike ordered w) (t : CalculatedTag) (lookup : Option Lookup)
    (centre : Option Geo.Position) (box : Option Geo.Box) :
    t.compute (.spatial lookup centre box) w = t.compute (.spatial lookup centre box) v := by
  simp only [CalculatedTag.compute, CalculatedTag.outcome, alike.scope]

end View.Alike

/-- What a lazy tag leaves does not heed the order. -/
theorem CalculatedTag.later_steady (t : CalculatedTag) (lookup : Option Lookup)
    (centre : Option Geo.Position) (box : Option Geo.Box) :
    Steady ordered (t.later (.spatial lookup centre box)) := fun alike => by
  simp only [CalculatedTag.later, alike.compute]

/-- What is left to be computed from the geometry does not heed the order. -/
theorem Standard.fromGeometry_steady (measure : Geo.Geometry → Float) :
    Steady ordered (Standard.fromGeometry measure) := fun alike => by
  simp only [Standard.fromGeometry, alike.geometry]

end DerivedTags
