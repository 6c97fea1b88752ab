import DerivedTags.Proofs.Tagging.Containment
import DerivedTags.Proofs.Tagging.Mending
import DerivedTags.Proofs.Tagging.StrictRuns
import DerivedTags.Proofs.Tagging.Telling
import DerivedTags.Proofs.Tagging.Turns

/-!
# Faults stay local

A run meets three kinds of faults: a derivation breaks, a store cannot be told, methods
cannot be attached. The first two do not show in the features and the result, as if they had
been mended. They show in the log, and a derivation that breaks may have read properties
before, whose computation calls others and fails for itself. The third fault costs a feature
its calculated tags in this run. It still counts as changed, and no other feature is touched
by it.
-/

namespace DerivedTags

open DerivedTags.Session (SameSince)
open DerivedTags.Snippet (Panic)

namespace Pass

variable {p : Pass} {f g : Feature} {s : Session} {changed : Bool}

end Pass

namespace Tagger

variable {t : Tagger} {surroundings : Surroundings} {layer : Layer} {store : Option Store}
  {options : Options} {l : LayerTags} {features : List Feature} {s : Session} {f : Feature}
  {place : Nat} {changed : Bool}

end Tagger

end DerivedTags
