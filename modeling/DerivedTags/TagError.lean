/-!
# Errors around tagging

What a collaborator of a pass, a definition or a feature reports when it
cannot go on. The wording is part of the log.
-/

namespace DerivedTags

/-- Why something could not be done. -/
inductive TagError where
  /-- A derivation has no value for its keys. -/
  | derivation (keys message : String)
  /-- Methods could not be attached to a feature. -/
  | augmentation (feature message : String)
  /-- A store could not be told of a change. -/
  | notification (feature message : String)
  /-- The text of a calculated tag is not valid. -/
  | invalidTag (definition reason : String)
  /-- A feature has no id. -/
  | missingId
  deriving DecidableEq, Repr

namespace TagError

/-- A derivation's error, its keys joined. -/
def ofDerivation (keys : List String) (message : String) : TagError :=
  .derivation (",".intercalate keys) message

/-- The message of an error. -/
def message : TagError → String
  | .derivation keys message => "Could not calculate metatag for '" ++ keys ++ "': " ++ message
  | .augmentation feature message =>
    "Feature augmentation failed for '" ++ feature ++ "': " ++ message
  | .notification feature message =>
    "Could not ping the store of '" ++ feature ++ "': " ++ message
  | .invalidTag definition reason =>
    "Invalid calculated tag '" ++ definition ++ "': " ++ reason
  | .missingId => "Feature has neither an 'id' nor a 'properties.id'"

end TagError

end DerivedTags
