import DerivedTags.Proofs.Json.RoundTrip
import DerivedTags.Snippet.Equality

/-!
# The JSON text of values

A value without doubles has the text of its JSON value, undefined items being null and
undefined members left out. If nothing is undefined and objects keep their keys in order,
the JSON value determines the value up to the identities of arrays and objects, and so
does the text.
-/

namespace DerivedTags.Snippet.Value

/-- A value in which there is no double. -/
inductive Floatless : Value → Prop where
  /-- What a missing member reads as. -/
  | undefined : Floatless .undefined
  /-- The null value. -/
  | null : Floatless .null
  /-- A truth value. -/
  | bool (b : Bool) : Floatless (.bool b)
  /-- An integer. -/
  | int (n : Int64) : Floatless (.int n)
  /-- A text. -/
  | str (s : String) : Floatless (.str s)
  /-- An array of such values. -/
  | array (identity : Option Nat) {items : List Value} (each : ∀ item ∈ items, Floatless item) :
      Floatless (.array identity items)
  /-- An object of such values. -/
  | object (identity : Option Nat) {members : List (String × Value)}
      (each : ∀ m ∈ members, Floatless m.2) : Floatless (.object identity members)

/-- Items are written behind commas as their JSON values are. -/
theorem jsonItems_false {items : List Value}
    (each : ∀ item ∈ items, item.jsonChars = item.toJson.render) :
    jsonItems false items = Json.renderMoreItems (toJsonItems items) := by
  induction items with
  | nil => rfl
  | cons item rest ih =>
    have first := each item List.mem_cons_self
    have others := ih fun other mem => each other (List.mem_cons_of_mem item mem)
    simp [jsonItems, toJsonItems, Json.renderMoreItems, first, others]

/-- Items are written between brackets as their JSON values are. -/
theorem jsonItems_true {items : List Value}
    (each : ∀ item ∈ items, item.jsonChars = item.toJson.render) :
    jsonItems true items = Json.renderItems (toJsonItems items) := by
  cases items with
  | nil => rfl
  | cons item rest =>
    have first := each item List.mem_cons_self
    have others := jsonItems_false fun other mem => each other (List.mem_cons_of_mem item mem)
    simp [jsonItems, toJsonItems, Json.renderItems, first, others]

/-- Members are written behind commas as their JSON values are, undefined ones not at all. -/
theorem jsonMembers_false {members : List (String × Value)}
    (each : ∀ m ∈ members, m.2.jsonChars = m.2.toJson.render) :
    jsonMembers false members = Json.renderMoreMembers (toJsonMembers members) := by
  induction members with
  | nil => rfl
  | cons m rest ih =>
    obtain ⟨key, v⟩ := m
    have first : v.jsonChars = v.toJson.render := each (key, v) List.mem_cons_self
    have others := ih fun other mem => each other (List.mem_cons_of_mem _ mem)
    by_cases absent : v.isUndefined = true
    · simp [jsonMembers, toJsonMembers, absent, others]
    · simp [jsonMembers, toJsonMembers, Json.renderMoreMembers, absent, first, others]

/-- Members are written between braces as their JSON values are, undefined ones not at all:
the first one that is written has no comma in front. -/
theorem jsonMembers_true {members : List (String × Value)}
    (each : ∀ m ∈ members, m.2.jsonChars = m.2.toJson.render) :
    jsonMembers true members = Json.renderMembers (toJsonMembers members) := by
  induction members with
  | nil => rfl
  | cons m rest ih =>
    obtain ⟨key, v⟩ := m
    have first : v.jsonChars = v.toJson.render := each (key, v) List.mem_cons_self
    have inner : ∀ other ∈ rest, other.2.jsonChars = other.2.toJson.render :=
      fun other mem => each other (List.mem_cons_of_mem _ mem)
    by_cases absent : v.isUndefined = true
    · simp [jsonMembers, toJsonMembers, absent, ih inner]
    · simp [jsonMembers, toJsonMembers, Json.renderMembers, absent, first,
        jsonMembers_false inner]

/-- Without doubles the text of a value is that of its JSON value. -/
theorem Floatless.jsonChars_eq {v : Value} (floatless : v.Floatless) :
    v.jsonChars = v.toJson.render := by
  induction floatless with
  | undefined => rfl
  | null => rfl
  | bool b => cases b <;> rfl
  | int n => rfl
  | str s => rfl
  | array identity each ih =>
    rw [jsonChars, toJson, Json.render, jsonItems_true ih]
  | object identity each ih =>
    rw [jsonChars, toJson, Json.render, jsonMembers_true ih]

/-- The values that their texts determine up to identities: no double and nothing undefined
is in them, and objects keep their keys in order, each once. -/
inductive Exact : Value → Prop where
  /-- The null value. -/
  | null : Exact .null
  /-- A truth value. -/
  | bool (b : Bool) : Exact (.bool b)
  /-- An integer. -/
  | int (n : Int64) : Exact (.int n)
  /-- A text. -/
  | str (s : String) : Exact (.str s)
  /-- An array of such values. -/
  | array (identity : Option Nat) {items : List Value} (each : ∀ item ∈ items, Exact item) :
      Exact (.array identity items)
  /-- An object of such values. -/
  | object (identity : Option Nat) {members : List (String × Value)}
      (each : ∀ m ∈ members, Exact m.2) (ordered : (members.map Prod.fst).Pairwise (· < ·)) :
      Exact (.object identity members)

/-- No double is in such a value. -/
theorem Exact.floatless {v : Value} (exact : v.Exact) : v.Floatless := by
  induction exact with
  | null => exact .null
  | bool b => exact .bool b
  | int n => exact .int n
  | str s => exact .str s
  | array identity each ih => exact .array identity ih
  | object identity each ordered ih => exact .object identity ih

/-- Such a value is not undefined. -/
theorem Exact.defined {v : Value} (exact : v.Exact) : v.isUndefined = false := by
  cases exact <;> rfl

/-- Items as JSON values, one by one. -/
theorem toJsonItems_eq_map (items : List Value) : toJsonItems items = items.map toJson := by
  induction items with
  | nil => rfl
  | cons item rest ih => rw [toJsonItems, ih, List.map_cons]

/-- The members of the JSON value are the defined ones, each with the JSON value of its own. -/
theorem toJsonMembers_eq_map_filter (members : List (String × Value)) :
    toJsonMembers members =
      (members.filter fun m => !m.2.isUndefined).map fun m => (m.1, m.2.toJson) := by
  induction members with
  | nil => rfl
  | cons m rest ih =>
    obtain ⟨key, v⟩ := m
    rw [toJsonMembers, List.filter_cons, ih]
    cases v.isUndefined <;> rfl

/-- Where nothing is undefined, members are JSON values one by one. -/
theorem toJsonMembers_eq_map {members : List (String × Value)}
    (each : ∀ m ∈ members, m.2.isUndefined = false) :
    toJsonMembers members = members.map fun m => (m.1, m.2.toJson) := by
  have all : (members.filter fun m => !m.2.isUndefined) = members :=
    List.filter_eq_self.mpr fun m mem => by rw [each m mem, Bool.not_false]
  rw [toJsonMembers_eq_map_filter, all]

/-- The JSON value is one that is read back from its text. -/
theorem Exact.toJson {v : Value} (exact : v.Exact) : v.toJson.Exact := by
  induction exact with
  | null => exact .null
  | bool b => exact .bool b
  | int n => exact .int n
  | str s => exact .str s
  | array identity each ih =>
    rw [Value.toJson, toJsonItems_eq_map]
    exact .arr (List.forall_mem_map.mpr ih)
  | object identity each ordered ih =>
    rw [Value.toJson, toJsonMembers_eq_map fun m mem => (each m mem).defined]
    refine .obj (List.forall_mem_map.mpr ih) ?_
    rw [List.map_map]
    exact ordered

mutual

/-- The value with the identities of arrays and objects forgotten. -/
def anonymous : Value → Value
  | .array _ items => .array none (anonymousItems items)
  | .object _ members => .object none (anonymousMembers members)
  | v => v

/-- Items with identities forgotten. -/
def anonymousItems : List Value → List Value
  | [] => []
  | item :: rest => anonymous item :: anonymousItems rest

/-- Members with identities forgotten. -/
def anonymousMembers : List (String × Value) → List (String × Value)
  | [] => []
  | (key, value) :: rest => (key, anonymous value) :: anonymousMembers rest

end

/-- Items of a JSON value as values, one by one. -/
theorem ofJsonItems_eq_map (items : List Json) : ofJsonItems items = items.map ofJson := by
  induction items with
  | nil => rfl
  | cons item rest ih => rw [ofJsonItems, ih, List.map_cons]

/-- Members of a JSON value as values, one by one. -/
theorem ofJsonMembers_eq_map (members : List (String × Json)) :
    ofJsonMembers members = members.map fun m => (m.1, ofJson m.2) := by
  induction members with
  | nil => rfl
  | cons m rest ih => rw [ofJsonMembers, ih, List.map_cons]

/-- Identities are forgotten item by item. -/
theorem anonymousItems_eq_map (items : List Value) :
    anonymousItems items = items.map anonymous := by
  induction items with
  | nil => rfl
  | cons item rest ih => rw [anonymousItems, ih, List.map_cons]

/-- Identities are forgotten member by member. -/
theorem anonymousMembers_eq_map (members : List (String × Value)) :
    anonymousMembers members = members.map fun m => (m.1, m.2.anonymous) := by
  induction members with
  | nil => rfl
  | cons m rest ih => rw [anonymousMembers, ih, List.map_cons]

/-- The JSON value of such a value keeps all but the identities. -/
theorem Exact.ofJson_toJson {v : Value} (exact : v.Exact) : ofJson v.toJson = v.anonymous := by
  induction exact with
  | null => rfl
  | bool b => rfl
  | int n => rfl
  | str s => rfl
  | array identity each ih =>
    rw [Value.toJson, ofJson, anonymous, toJsonItems_eq_map, ofJsonItems_eq_map,
      anonymousItems_eq_map, List.map_map]
    exact congrArg (Value.array none) (List.map_congr_left ih)
  | object identity each ordered ih =>
    rw [Value.toJson, ofJson, anonymous, toJsonMembers_eq_map fun m mem => (each m mem).defined,
      ofJsonMembers_eq_map, anonymousMembers_eq_map, List.map_map]
    exact congrArg (Value.object none)
      (List.map_congr_left fun m mem => congrArg (Prod.mk m.1) (ih m mem))

/-- Without doubles a value is structurally equal to what is left when its identities are
forgotten. -/
theorem Floatless.same_anonymous {v : Value} (floatless : v.Floatless) :
    v.same v.anonymous = true := by
  induction floatless with
  | undefined => rfl
  | null => rfl
  | bool b => exact beq_self_eq_true b
  | int n => exact beq_self_eq_true n
  | str s => exact beq_self_eq_true s
  | @array identity items each ih =>
    rw [anonymous, same]
    clear each
    induction items with
    | nil => rfl
    | cons item rest others =>
      rw [anonymousItems, sameItems, ih item List.mem_cons_self, Bool.true_and]
      exact others fun other mem => ih other (List.mem_cons_of_mem item mem)
  | @object identity members each ih =>
    rw [anonymous, same]
    clear each
    induction members with
    | nil => rfl
    | cons m rest others =>
      rw [anonymousMembers, sameMembers, beq_self_eq_true, ih m List.mem_cons_self,
        Bool.true_and, Bool.true_and]
      exact others fun other mem => ih other (List.mem_cons_of_mem m mem)

/-- The text of such a value is read as its JSON value. -/
theorem Exact.parse_jsonText {v : Value} (exact : v.Exact)
    (shallow : v.toJson.depth ≤ Json.maxLevels) : Json.parse v.jsonText = some v.toJson := by
  rw [jsonText, exact.floatless.jsonChars_eq]
  exact exact.toJson.parseWithin_text shallow

end DerivedTags.Snippet.Value
