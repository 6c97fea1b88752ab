import DerivedTags.Proofs.Snippet.Conversion

/-!
# The two encoders of values

A value is written as JSON text in one go, or it is converted to a JSON value that is then
written. Doubles aside, both ways lead to the same text, though each leaves undefined members
out on its own. The conversion undoes the one that makes values of JSON values, and neither of
them disturbs the order of keys.
-/

namespace DerivedTags

/-- A JSON value in which every object has its members in the order of their keys, each key
once, as a map with sorted keys holds them. -/
inductive Json.Ordered : Json → Prop where
  /-- The null value. -/
  | null : Ordered .null
  /-- A truth value. -/
  | bool (b : Bool) : Ordered (.bool b)
  /-- A number. -/
  | num (n : JsonNumber) : Ordered (.num n)
  /-- A text. -/
  | str (s : String) : Ordered (.str s)
  /-- An array of such values. -/
  | arr {items : List Json} (each : ∀ item ∈ items, Ordered item) : Ordered (.arr items)
  /-- An object of such values. -/
  | obj {members : List (String × Json)} (each : ∀ m ∈ members, Ordered m.2)
      (ordered : (members.map Prod.fst).Pairwise (· < ·)) : Ordered (.obj members)

/-- A double has such a JSON form. -/
theorem Json.ordered_ofFloat (x : Float) : (Json.ofFloat x).Ordered := by
  unfold Json.ofFloat
  split
  · exact .num (.float x)
  · exact .null

namespace Snippet.Value

/-- A value in which every object has its members in the order of their keys, each key once. -/
inductive Ordered : Value → Prop where
  /-- What a missing member reads as. -/
  | undefined : Ordered .undefined
  /-- The null value. -/
  | null : Ordered .null
  /-- A truth value. -/
  | bool (b : Bool) : Ordered (.bool b)
  /-- An integer. -/
  | int (n : Int64) : Ordered (.int n)
  /-- A double. -/
  | float (x : Float) : Ordered (.float x)
  /-- A text. -/
  | str (s : String) : Ordered (.str s)
  /-- An array of such values. -/
  | array (identity : Option Nat) {items : List Value} (each : ∀ item ∈ items, Ordered item) :
      Ordered (.array identity items)
  /-- An object of such values. -/
  | object (identity : Option Nat) {members : List (String × Value)}
      (each : ∀ m ∈ members, Ordered m.2)
      (ordered : (members.map Prod.fst).Pairwise (· < ·)) : Ordered (.object identity members)

/-- The members that are left in the JSON value of an object have the order that they had. -/
theorem ordered_keys_toJsonMembers {members : List (String × Value)}
    (ordered : (members.map Prod.fst).Pairwise (· < ·)) :
    ((toJsonMembers members).map Prod.fst).Pairwise (· < ·) := by
  have left : (members.filter fun m => !m.2.isUndefined).Sublist members := List.filter_sublist
  rw [toJsonMembers_eq_map_filter, List.map_map]
  exact ordered.sublist (left.map Prod.fst)

/-- Keys in order are in order in the JSON value. -/
theorem Ordered.toJson {v : Value} (ordered : v.Ordered) : v.toJson.Ordered := by
  induction ordered with
  | undefined => exact .null
  | null => exact .null
  | bool b => exact .bool b
  | int n => exact .num (.int n)
  | float x => exact Json.ordered_ofFloat x
  | str s => exact .str s
  | array identity each ih =>
    rw [Value.toJson, toJsonItems_eq_map]
    exact .arr (List.forall_mem_map.mpr ih)
  | @object identity members each ordered ih =>
    have inner : ∀ m ∈ toJsonMembers members, m.2.Ordered := by
      rw [toJsonMembers_eq_map_filter]
      exact List.forall_mem_map.mpr fun m mem => ih m (List.mem_of_mem_filter mem)
    rw [Value.toJson]
    exact .obj inner (ordered_keys_toJsonMembers ordered)

/-- Keys in order are in order in what a JSON value becomes. -/
theorem ordered_ofJson {j : Json} (ordered : j.Ordered) : (ofJson j).Ordered := by
  induction ordered with
  | null => exact .null
  | bool b => exact .bool b
  | num n =>
    cases n with
    | int n => exact .int n
    | big n => exact .float _
    | float x => exact .float x
  | str s => exact .str s
  | arr each ih =>
    rw [ofJson, ofJsonItems_eq_map]
    exact .array none (List.forall_mem_map.mpr ih)
  | obj each ordered ih =>
    rw [ofJson, ofJsonMembers_eq_map]
    refine .object none (List.forall_mem_map.mpr ih) ?_
    rw [List.map_map]
    exact ordered

/-- The two encoders of values agree. The text of a value without doubles is the compact text
of its JSON value, wherever something undefined is in it. A JSON value whose numbers are
integers of the signed range and finite doubles comes back from the conversion to a value of
snippets as it was. Keys that are in order, as in a map with sorted keys, stay so in both
directions. -/
theorem encoders_agree :
    (∀ v : Value, v.Floatless → v.jsonText = v.toJson.text) ∧
    (∀ j : Json, j.Representable → (ofJson j).toJson = j) ∧
    (∀ v : Value, v.Ordered → v.toJson.Ordered) ∧
    ∀ j : Json, j.Ordered → (ofJson j).Ordered := by
  refine ⟨fun v floatless => ?_, fun j representable => toJson_ofJson representable,
    fun v ordered => ordered.toJson, fun j ordered => ordered_ofJson ordered⟩
  rw [jsonText, Json.text, floatless.jsonChars_eq]

/-- Doubles are left out, since a JSON value keeps them apart from integers and the text does
not. -/
example : (Value.float 6.0).jsonText = "6" ∧ (Value.float 6.0).toJson.text = "6.0" := by
  decide +kernel

/-- An undefined item, an object of nothing defined, and an integer. -/
def gaps : Value := .array none [.undefined, .object none [("x", .undefined)], .int (-3)]

/-- Undefined members before, between and behind others. -/
def patchy : Value :=
  .object none
    [("a", .undefined), ("b", gaps), ("c", .undefined), ("d", .null), ("e", .undefined)]

/-- The least integer, a negative zero and null. -/
def extremes : Json := .arr [.num (.int (-9223372036854775808)), .num (.float (-0.0)), .null]

/-- A key that has to be escaped, and a fraction. -/
def readings : Json := .obj [("\"", extremes), ("mean", .num (.float 2.5))]

/-- The gaps leave no stray comma in either encoding, and the readings come back. -/
theorem encoders_agree_patchy :
    patchy.Floatless ∧ patchy.jsonText = "\x7b\"b\":[null,\x7b\x7d,-3],\"d\":null\x7d" ∧
      patchy.jsonText = patchy.toJson.text ∧ readings.Representable ∧
      (ofJson readings).toJson = readings ∧ patchy.Ordered ∧ patchy.toJson.Ordered ∧
      readings.Ordered ∧ (ofJson readings).Ordered := by
  obtain ⟨texts, back, forth, home⟩ := encoders_agree
  have floatless : patchy.Floatless := by
    have inner : gaps.Floatless :=
      .array none (by simpa using ⟨.undefined, .object none (by simpa using .undefined), .int _⟩)
    exact .object none (by simpa using ⟨.undefined, inner, .undefined, .null, .undefined⟩)
  have sorted : patchy.Ordered := by
    have empty : Ordered (.object none [("x", .undefined)]) :=
      .object none (by simpa using .undefined) (by decide)
    have inner : gaps.Ordered := .array none (by simpa using ⟨.undefined, empty, .int _⟩)
    exact .object none (by simpa using ⟨.undefined, inner, .undefined, .null, .undefined⟩)
      (by decide)
  have representable : readings.Representable := by
    have inner : extremes.Representable :=
      .arr (by simpa using ⟨.int _, .float (by decide), .null⟩)
    exact .obj (by simpa using ⟨inner, .float (by decide)⟩)
  have keyed : readings.Ordered := by
    have inner : extremes.Ordered := .arr (by simpa using ⟨.num _, .num _, .null⟩)
    exact .obj (by simpa using ⟨inner, .num _⟩) (by decide)
  exact ⟨floatless, by decide +kernel, texts patchy floatless, representable,
    back readings representable, sorted, forth patchy sorted, keyed, home readings keyed⟩

end Snippet.Value

end DerivedTags
