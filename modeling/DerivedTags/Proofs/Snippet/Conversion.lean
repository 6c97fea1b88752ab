import DerivedTags.Proofs.Json.Members
import DerivedTags.Proofs.Snippet.JsonText
import DerivedTags.Snippet.Methods

/-!
# JSON values as values of snippets

A JSON value whose numbers a snippet can hold as they are comes back from the conversion
to a value of snippets and is never undefined. The members of a converted object are the
converted members of the object, so that following a path commutes with the conversion.
-/

namespace DerivedTags

/-- A JSON value that a snippet can hold without loss: its integers are in the signed range
and its doubles are finite. -/
inductive Json.Representable : Json → Prop where
  /-- The null value. -/
  | null : Representable .null
  /-- A truth value. -/
  | bool (b : Bool) : Representable (.bool b)
  /-- An integer of the signed range. -/
  | int (n : Int64) : Representable (.num (.int n))
  /-- A finite double. -/
  | float {x : Float} (finite : x.isFinite = true) : Representable (.num (.float x))
  /-- A text. -/
  | str (s : String) : Representable (.str s)
  /-- An array of such values. -/
  | arr {items : List Json} (each : ∀ item ∈ items, Representable item) :
      Representable (.arr items)
  /-- An object of such values. -/
  | obj {members : List (String × Json)} (each : ∀ m ∈ members, Representable m.2) :
      Representable (.obj members)

/-- A double has a JSON form that a snippet can hold. -/
theorem Json.representable_ofFloat (x : Float) : (Json.ofFloat x).Representable := by
  unfold Json.ofFloat
  split
  · rename_i finite
    exact .float finite
  · exact .null

/-- Items that are all converted to such values make such an array. -/
theorem Json.representable_arr_map {α : Type} {f : α → Json}
    (each : ∀ a, (f a).Representable) (xs : List α) : (Json.arr (xs.map f)).Representable :=
  .arr (List.forall_mem_map.mpr fun a _ => each a)

namespace Snippet.Value

/-- What a JSON value becomes is never undefined. -/
theorem isUndefined_ofJson (j : Json) : (ofJson j).isUndefined = false := by
  cases j with
  | num n => cases n <;> rfl
  | _ => rfl

/-- A JSON value that a snippet can hold comes back as it was. -/
theorem toJson_ofJson {j : Json} (representable : j.Representable) :
    (ofJson j).toJson = j := by
  induction representable with
  | null => rfl
  | bool b => rfl
  | int n => rfl
  | float finite => exact if_pos finite
  | str s => rfl
  | @arr items each ih =>
    rw [ofJson, toJson, toJsonItems_eq_map, ofJsonItems_eq_map, List.map_map]
    exact congrArg Json.arr ((List.map_congr_left ih).trans (List.map_id' items))
  | @obj members each ih =>
    have defined : ∀ m ∈ ofJsonMembers members, m.2.isUndefined = false := by
      rw [ofJsonMembers_eq_map]
      exact List.forall_mem_map.mpr fun m _ => isUndefined_ofJson m.2
    rw [ofJson, toJson, toJsonMembers_eq_map defined, ofJsonMembers_eq_map, List.map_map]
    refine congrArg Json.obj ((List.map_congr_left fun m mem => ?_).trans (List.map_id' members))
    exact congrArg (Prod.mk m.1) (ih m mem)

/-- Under each key of a converted object stands the converted member. -/
theorem lookup_ofJsonMembers (members : List (String × Json)) (key : String) :
    (ofJsonMembers members).lookup key = (members.lookup key).map ofJson := by
  rw [ofJsonMembers_eq_map]
  exact Json.lookup_map_snd ofJson members key

/-- A member of a converted object is the converted member; one that is not there is
undefined. -/
theorem member_ofJson_object {members : List (String × Json)}
    (nodup : (members.map Prod.fst).Nodup) (key : String) :
    (ofJson (Json.object members)).member key =
      .ok (((members.lookup key).map ofJson).getD .undefined) := by
  have sorted := Json.lookup_foldl_setMember nodup [] key
  rw [List.lookup_nil, Option.or_none] at sorted
  rw [Json.object, ofJson, member, lookup_ofJsonMembers, sorted]

/-- A path of one more step is followed from the member of the first step. -/
theorem follow_cons (v : Value) (key : String) (rest : List String) :
    v.follow (key :: rest) = v.member key >>= (·.follow rest) := by
  rw [follow]
  cases v.member key <;> rfl

end Snippet.Value

end DerivedTags
