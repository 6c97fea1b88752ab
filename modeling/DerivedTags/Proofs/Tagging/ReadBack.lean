import DerivedTags.Proofs.Feature.Nesting
import DerivedTags.Proofs.Snippet.Congruence
import DerivedTags.Proofs.Snippet.JsonText
import DerivedTags.Proofs.Tagging.TextTags

/-!
# Stored values read back

A strict tag stores its value as text, and `feat.get` reads text as JSON. What one
snippet stored another one thus reads as the value it was: the value of a strict tag goes
into its JSON text and comes back, all but the identities of arrays and objects.
-/

namespace DerivedTags

open DerivedTags.Snippet

namespace FeatureMethods

/-- The expression `feat.get(key)`. -/
def getCall (key : String) : Expr := .call ["feat", "get"] [.literal (.str key)]

/-- With the standard methods `feat.get(key)` asks for the property under the key. -/
theorem evaluate_getCall (lookup : Option Lookup) (centre : Option Geo.Position)
    (box : Option Geo.Box) (source key : String) (functions : FunctionTable) (view : View) :
    (⟨source, getCall key⟩ : Compiled).evaluate functions
        (view.scope (spatial lookup centre box)) =
      .ask key fun answer =>
        match answer with
        | .ok v => .done (.ok (parsed v))
        | .error p => .done (.error (.panicked p)) := by
  have shown : (Value.str key).display = key := String.ofList_toList
  rw [Compiled.evaluate, getCall, Expr.eval_call]
  show Reading.ask (Value.str key).display _ = _
  rw [shown]
  refine congrArg (Reading.ask key) (funext fun answer => ?_)
  cases answer with
  | ok v => rfl
  | error p => rfl

/-- The text of a value is read as the value, all but identities. -/
theorem parsed_jsonText {v : Value} (exact : v.Exact) (present : v.isMissing = false)
    (shallow : v.toJson.depth ≤ Json.maxLevels) :
    parsed (some (.str v.jsonText)) = v.anonymous := by
  rw [← exact.ofJson_toJson, parsed, exact.parse_jsonText shallow]
  cases exact with
  | null => cases present
  | bool b => rfl
  | int n => rfl
  | str s => rfl
  | array identity each => rfl
  | object identity each ordered => rfl

end FeatureMethods

/-- A value that is neither missing nor a text is stored as its JSON text. -/
theorem CalculatedTag.encoded_of_ne_text {v : Value} (present : v.isMissing = false)
    (other : v.text? = none) : encoded v = some (.str v.jsonText) := by
  cases v with
  | undefined => cases present
  | null => cases present
  | str s => cases other
  | bool b => rfl
  | int n => rfl
  | float x => rfl
  | array identity items => rfl
  | object identity members => rfl

namespace LayerTags

/-- Let the snippet of a strict tag give a value while the tags of a layer run on a feature,
and let no later tag have its key. The value is neither null nor a text, nothing in it is a
double or undefined, its objects have their keys in order, each once, as objects do, and it
nests no deeper than text is read. Then on the feature that the tags leave, `feat.get` of the
key gives the value, all but the identities of its arrays and objects, with the standard
methods of whatever geometry and in whatever session, which stays as it is. -/
theorem evaluate_getCall_runAll {t : CalculatedTag} (strict : t.strict = true)
    {methods : FeatureMethods} {before after : List CalculatedTag} {f g : Feature}
    {s mid : Session} {v : Value}
    (last : t.key ∉ after.map (·.key)) (reached : runAll methods before f s = (g, mid))
    (gives : (g.run (t.outcome methods g.view) mid).1 = .ok v)
    (exact : v.Exact) (present : v.isMissing = false) (other : v.text? = none)
    (shallow : v.toJson.depth ≤ Json.maxLevels)
    (lookup : Option Lookup) (centre : Option Geo.Position) (box : Option Geo.Box)
    (source : String) (functions : FunctionTable) (later : Session) :
    let h := (runAll methods (before ++ t :: after) f s).1
    h.run ((⟨source, FeatureMethods.getCall t.key⟩ : Compiled).evaluate functions
        (h.view.scope (.spatial lookup centre box))) later = (.ok v.anonymous, later) ∧
      v.same v.anonymous = true := by
  intro h
  have stored : h.properties.slot? t.key = some (.concrete (.str v.jsonText)) := by
    rw [slot?_runAll last, reached, CalculatedTag.leaves, if_pos strict]
    simp only [gives, CalculatedTag.encoded_of_ne_text present other, Option.map_some]
  refine ⟨?_, exact.floatless.same_anonymous⟩
  rw [FeatureMethods.evaluate_getCall, Feature.run, Reading.run]
  simp only [Session.bind_apply, Feature.get_concrete stored,
    FeatureMethods.parsed_jsonText exact present shallow]
  rfl

/-- A shop with its hours as a property. -/
def shop : Feature :=
  ⟨"a", none, .ofMembers
    [("hours", .obj [("closed", .arr [.str "\"Su\"", .null]), ("open", .ofInt (-7))])]⟩

/-- A strict tag that takes the hours over into a list. -/
def hoursTag : CalculatedTag :=
  ⟨.standard, "shops", "_hours", "", true,
    .ok ⟨"", .list [.var ["feat", "properties", "hours"], .literal (.bool true)]⟩⟩

/-- What the tag gives. -/
def hoursValue : Value :=
  .array none
    [.object none [("closed", .array none [.str "\"Su\"", .null]), ("open", .int (-7))],
      .bool true]

/-- The hours have nothing in them that texts cannot keep. -/
theorem hoursValue_exact : hoursValue.Exact := by
  have closed : Value.Exact (.array none [.str "\"Su\"", .null]) :=
    .array none (by simpa using ⟨.str _, .null⟩)
  have hours : Value.Exact
      (.object none [("closed", .array none [.str "\"Su\"", .null]), ("open", .int (-7))]) :=
    .object none (by simpa using ⟨closed, .int _⟩) (by decide)
  exact .array none (by simpa using ⟨hours, .bool true⟩)

/-- A list of an object and a truth value, with a list, quotes, null and a negative integer
in the object, is stored as one text and read back. -/
theorem evaluate_getCall_runAll_hours :
    hoursTag.strict = true ∧ hoursTag.key ∉ ([] : List CalculatedTag).map (·.key) ∧
      runAll .empty [] shop (.start 0) = (shop, .start 0) ∧
      (shop.run (hoursTag.outcome .empty shop.view) (.start 0)).1 = .ok hoursValue ∧
      hoursValue.Exact ∧ hoursValue.isMissing = false ∧ hoursValue.text? = none ∧
      hoursValue.toJson.depth ≤ Json.maxLevels ∧
      let h := (runAll .empty [hoursTag] shop (.start 0)).1
      (h.properties.concrete? "_hours").bind Json.text? =
          some "[\x7b\"closed\":[\"\\\"Su\\\"\",null],\"open\":-7\x7d,true]" ∧
        h.run ((⟨"", FeatureMethods.getCall "_hours"⟩ : Compiled).evaluate .standard
            (h.view.scope (.spatial none none none))) (.start 0) = (.ok hoursValue, .start 0) ∧
          hoursValue.same hoursValue = true := by
  have reached : runAll .empty [] shop (.start 0) = (shop, .start 0) := rfl
  have gives : (shop.run (hoursTag.outcome .empty shop.view) (.start 0)).1 = .ok hoursValue := rfl
  have shallow : hoursValue.toJson.depth ≤ Json.maxLevels := by decide +kernel
  refine ⟨rfl, List.not_mem_nil, reached, gives, hoursValue_exact, rfl, rfl, shallow, ?_, ?_⟩
  · decide +kernel
  · exact evaluate_getCall_runAll rfl List.not_mem_nil reached gives hoursValue_exact rfl rfl
      shallow none none none "" .standard (.start 0)

end LayerTags

end DerivedTags
