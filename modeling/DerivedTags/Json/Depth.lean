import DerivedTags.Json.Basic

/-!
# How deep a JSON value nests

The depth of a scalar is zero, that of a container one more than that of its
deepest child. Whether a value exceeds a limit is also answered by a walk
over a stack of pending values, which needs no recursion into the value.
-/

namespace DerivedTags.Json

mutual

/-- The depth of a value. -/
def depth : Json → Nat
  | .arr items => 1 + depthOfItems items
  | .obj members => 1 + depthOfMembers members
  | _ => 0

/-- The depth of the deepest item. -/
def depthOfItems : List Json → Nat
  | [] => 0
  | item :: rest => max (depth item) (depthOfItems rest)

/-- The depth of the deepest member value. -/
def depthOfMembers : List (String × Json) → Nat
  | [] => 0
  | (_, value) :: rest => max (depth value) (depthOfMembers rest)

end

/-- Behind each other, items are as deep as the deeper of both. -/
theorem depthOfItems_append (xs ys : List Json) :
    depthOfItems (xs ++ ys) = max (depthOfItems xs) (depthOfItems ys) := by
  induction xs with
  | nil => simp [depthOfItems]
  | cons x rest ih => simp only [List.cons_append, depthOfItems, ih, Nat.max_assoc]

/-- An item is not deeper than all items. -/
theorem depth_le_depthOfItems {x : Json} {xs : List Json} (mem : x ∈ xs) :
    depth x ≤ depthOfItems xs := by
  induction mem with
  | head rest => exact Nat.le_max_left _ _
  | tail other mem ih => exact Nat.le_trans ih (Nat.le_max_right _ _)

/-- The value of a member is not deeper than all of them. -/
theorem depth_le_depthOfMembers {m : String × Json} {members : List (String × Json)}
    (mem : m ∈ members) : depth m.2 ≤ depthOfMembers members := by
  induction mem with
  | head rest => exact Nat.le_max_left _ _
  | tail other mem ih => exact Nat.le_trans ih (Nat.le_max_right _ _)

mutual

/-- The number of values in a value, itself included. -/
def count : Json → Nat
  | .arr items => 1 + countItems items
  | .obj members => 1 + countMembers members
  | _ => 1

/-- The number of values in the items. -/
def countItems : List Json → Nat
  | [] => 0
  | item :: rest => count item + countItems rest

/-- The number of values in the members. -/
def countMembers : List (String × Json) → Nat
  | [] => 0
  | (_, value) :: rest => count value + countMembers rest

end

/-- The values directly inside a container; a scalar is no container. -/
def children? : Json → Option (List Json)
  | .arr items => some items
  | .obj members => some (members.map Prod.snd)
  | _ => none

/-- Visit pending values, each with its level, until a container lies below
the limit. The bound counts visits. -/
def anyBelow (limit : Nat) : Nat → List (Json × Nat) → Bool
  | 0, _ => false
  | _, [] => false
  | visits + 1, (value, level) :: pending =>
    match value.children? with
    | none => anyBelow limit visits pending
    | some inner =>
      if limit < level then true
      else anyBelow limit visits (inner.map (fun child => (child, level + 1)) ++ pending)

/-- Whether a value has more than `limit` levels of arrays and objects. Each
value is visited once at most. -/
def deeperThan (value : Json) (limit : Nat) : Bool :=
  anyBelow limit value.count [(value, 1)]

end DerivedTags.Json
