import DerivedTags.TagError
import DerivedTags.Json.Basic
import DerivedTags.Text.Blank

/-!
# Definitions of calculated tags

A definition gives a key and the snippet that computes it, either each time
it is read or once in a pass. It is written as `key=code`, or `key:=code`
for the strict kind, or as a triple. Code may itself hold equal signs.
-/

namespace DerivedTags.Layer

/-- One calculated tag of a layer. -/
structure Definition where
  /-- The key that is written. -/
  key : String
  /-- The code; a placeholder has none. -/
  snippet : Option String
  /-- Whether the value is computed in the pass and stored. -/
  strict : Bool
  deriving DecidableEq, Repr

namespace Definition

/-- A character that a key can begin with. -/
def isKeyStart (c : Char) : Bool := c.isLower || c == '_'

/-- A character that a key can go on with. -/
def isKeyPart (c : Char) : Bool := c.isLower || c.isDigit || c == ':' || c == '_'

/-- Whether a text is a key: lower case letters, digits, colons and
underscores, not beginning with a digit or a colon. -/
def isKey : List Char → Bool
  | [] => false
  | c :: rest => isKeyStart c && rest.all isKeyPart

/-- A definition with a valid key. `shown` is what an error quotes. -/
def checked (key : List Char) (snippet : Option String) (strict : Bool) (shown : String) :
    Except TagError Definition :=
  if isKey key then .ok ⟨String.ofList key, snippet, strict⟩
  else .error (.invalidTag shown ("'" ++ String.ofList key ++ "' is not a valid key"))

/-- A definition given by its parts. -/
def make (key : String) (snippet : Option String) (strict : Bool) : Except TagError Definition :=
  checked key.toList snippet strict key

/-- A key without the colon that marks the strict kind, and whether there was
one. Blanks around both are dropped. -/
def splitStrict (text : List Char) : List Char × Bool :=
  let key := Text.trim text
  if key.getLast? == some ':' then (Text.trim key.dropLast, true) else (key, false)

/-- Read the text form. The first equal sign ends the key. -/
def parse (entry : String) : Except TagError Definition :=
  let cs := entry.toList
  match cs.dropWhile (· != '=') with
  | _ :: code =>
    let (key, strict) := splitStrict (cs.takeWhile (· != '='))
    checked key (some (String.ofList code)) strict entry
  | [] => .error (.invalidTag entry "expected '<key>=<code>' or '<key>:=<code>'")

/-- The JSON form: key, code and kind. -/
def toJson (d : Definition) : Json :=
  .arr [.str d.key, (d.snippet.map Json.str).getD .null, .bool d.strict]

/-- Read a text or a triple. -/
def ofJson? : Json → Option Definition
  | .str entry => (parse entry).toOption
  | .arr [.str key, .null, .bool strict] => (make key none strict).toOption
  | .arr [.str key, .str snippet, .bool strict] => (make key (some snippet) strict).toOption
  | _ => none

end Definition

end DerivedTags.Layer
