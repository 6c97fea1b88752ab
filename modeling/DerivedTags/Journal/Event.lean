import DerivedTags.TagError
import DerivedTags.Geo.Box

/-!
# What happens during a pass

Calls of collaborators and failures of calculated tags are events. The log
is a list of lines that keep what they are about; their texts follow from it.
-/

namespace DerivedTags

/-- A call of something outside the tagger. -/
inductive Call where
  /-- A deferred property was computed. -/
  | computed (key : String)
  /-- Methods were asked for. -/
  | attached (feature : String)
  /-- A store was told of a change. -/
  | pinged (feature : String)
  /-- A derivation ran. -/
  | derived (keys : List String) (feature layer : String)
  /-- A feature was looked up by id. -/
  | lookedUp (id : String)
  /-- The features of a layer within a box were looked up. -/
  | searched (layer : String) (box : Geo.Box)

/-- Which calculated tag failed. -/
structure TagFailure where
  /-- The layer of the tag. -/
  layer : String
  /-- The key of the tag. -/
  key : String
  /-- The code of the tag. -/
  snippet : String
  /-- Whether the tag is strict. -/
  strict : Bool
  deriving DecidableEq, Repr

/-- What a computation over a feature lets be known. -/
inductive Event where
  /-- A call of a collaborator. -/
  | call (c : Call)
  /-- A calculated tag without a value, and why. -/
  | failure (f : TagFailure) (cause : String)

/-- How grave a line of the log is. -/
inductive Level where
  /-- Something was given up. -/
  | error
  /-- Something has no value. -/
  | warn
  /-- Something of note. -/
  | debug
  /-- Every step. -/
  | trace
  deriving DecidableEq, Repr

/-- The name of a level. -/
def Level.name : Level → String
  | .error => "ERROR"
  | .warn => "WARN"
  | .debug => "DEBUG"
  | .trace => "TRACE"

/-- A line of the log. -/
inductive LogLine where
  /-- A calculated tag failed. -/
  | tagFailed (f : TagFailure) (cause : String)
  /-- Further failures will not be logged. -/
  | limitReached (limit : Nat)
  /-- The tags of a layer were compiled. -/
  | compiled (count : Nat) (layer : String)
  /-- A derivation failed. -/
  | derivationFailed (e : TagError)
  /-- The tags of a feature were skipped. -/
  | tagsSkipped (e : TagError)
  /-- A store was not told of a change. -/
  | pingFailed (e : TagError)
  /-- A settled batch arrived. -/
  | batchReceived (layer : String) (size : Nat)
  deriving DecidableEq, Repr

namespace LogLine

/-- The level of a line. -/
def level : LogLine → Level
  | .tagFailed .. => .warn
  | .compiled .. => .debug
  | .batchReceived .. => .trace
  | _ => .error

/-- The text of a line. -/
def text : LogLine → String
  | .tagFailed f cause =>
    "Could not calculate a " ++ (if f.strict then "strict " else "") ++
      "calculated tag for key " ++ f.key ++ " defined by " ++ f.snippet ++ " (in layer " ++
      f.layer ++ ") due to " ++ cause ++
      ". Are you the theme creator? Doublecheck your code. " ++
      "Note that the metatags might not be stable on new features"
  | .limitReached limit =>
    "Got " ++ limit.repr ++ " errors calculating this metatagging - stopping output now"
  | .compiled count layer =>
    "Compiled " ++ count.repr ++ " calculated tags for layer " ++ layer
  | .derivationFailed e => e.message
  | .tagsSkipped e =>
    "Invalid syntax in calculated tags or some other error: " ++ e.message
  | .pingFailed e => "Could not ping a store for a changed property due to " ++ e.message
  | .batchReceived layer size =>
    "Recalculating metatags for layer " ++ layer ++
      " due to a change in the upstream features. Contains " ++ size.repr ++ " items"

end LogLine

end DerivedTags
