import Mathlib.Data.List.Basic
import Mathlib.Order.MinMax
import DerivedTags.Json.Depth

/-!
# The limit on the depth of a JSON value

A walk over a stack of pending values finds a container below the limit exactly if some
pending value is too deep for the level it stands on. Each visit takes one value off the
stack, so that as many visits as there are values are enough, and a value exceeds a limit
by the walk exactly if it does by its depth.
-/

namespace DerivedTags.Json

/-- Items are deeper than a number if one of them is. -/
theorem lt_depthOfItems_iff {n : Nat} {items : List Json} :
    n < depthOfItems items ↔ ∃ item ∈ items, n < item.depth := by
  induction items with
  | nil => simp [depthOfItems]
  | cons item rest ih => rw [depthOfItems, lt_max_iff, ih, List.exists_mem_cons_iff]

/-- The depth of members is that of their values. -/
theorem depthOfMembers_eq (members : List (String × Json)) :
    depthOfMembers members = depthOfItems (members.map Prod.snd) := by
  induction members with
  | nil => rfl
  | cons m rest ih => rw [depthOfMembers, ih, List.map_cons, depthOfItems]

/-- The number of values in members is that in their values. -/
theorem countMembers_eq (members : List (String × Json)) :
    countMembers members = countItems (members.map Prod.snd) := by
  induction members with
  | nil => rfl
  | cons m rest ih => rw [countMembers, ih, List.map_cons, countItems]

/-- Behind each other, items have the values of both. -/
theorem countItems_append (xs ys : List Json) :
    countItems (xs ++ ys) = countItems xs + countItems ys := by
  induction xs with
  | nil => simp [countItems]
  | cons x rest ih => simp only [List.cons_append, countItems, ih, Nat.add_assoc]

/-- A value counts itself. -/
theorem count_pos (value : Json) : 0 < value.count := by
  cases value <;> simp only [count] <;> omega

/-- A scalar has no depth. -/
theorem depth_of_scalar {value : Json} (scalar : value.children? = none) : value.depth = 0 := by
  cases value <;> first | rfl | cases scalar

/-- A container is one level deeper than its children. -/
theorem depth_of_children {value : Json} {inner : List Json}
    (children : value.children? = some inner) : value.depth = 1 + depthOfItems inner := by
  cases value with
  | arr items =>
    obtain rfl := Option.some.inj children
    rfl
  | obj members =>
    obtain rfl := Option.some.inj children
    rw [depth, depthOfMembers_eq]
  | null | bool b | num n | str s => cases children

/-- A container has one value more than its children. -/
theorem count_of_children {value : Json} {inner : List Json}
    (children : value.children? = some inner) : value.count = 1 + countItems inner := by
  cases value with
  | arr items =>
    obtain rfl := Option.some.inj children
    rfl
  | obj members =>
    obtain rfl := Option.some.inj children
    rw [count, countMembers_eq]
  | null | bool b | num n | str s => cases children

/-- With visits for all pending values the walk finds a container below the limit exactly
if one of the values is deeper than the levels that are left where it stands. -/
theorem anyBelow_iff {limit visits : Nat} {pending : List (Json × Nat)}
    (enough : countItems (pending.map Prod.fst) ≤ visits) :
    anyBelow limit visits pending = true ↔ ∃ p ∈ pending, limit + 1 - p.2 < p.1.depth := by
  induction visits generalizing pending with
  | zero =>
    cases pending with
    | nil => simp [anyBelow]
    | cons p rest =>
      have one := count_pos p.1
      simp only [List.map_cons, countItems] at enough
      omega
  | succ visits ih =>
    match pending with
    | [] => simp [anyBelow]
    | (value, level) :: rest =>
      simp only [List.map_cons, countItems] at enough
      rw [List.exists_mem_cons_iff]
      cases children : value.children? with
      | none =>
        have one := count_pos value
        have shallow := depth_of_scalar children
        have others : anyBelow limit visits rest = true ↔
            ∃ p ∈ rest, limit + 1 - p.2 < p.1.depth := ih (by omega)
        simp only [anyBelow, children, others, shallow, Nat.not_lt_zero, false_or]
      | some inner =>
        have deep := depth_of_children children
        have size := count_of_children children
        simp only [anyBelow, children]
        split
        · have here : limit + 1 - level < value.depth := by omega
          exact iff_of_true rfl (.inl here)
        · have values : (inner.map fun child => (child, level + 1)).map Prod.fst = inner := by
            rw [List.map_map]
            exact List.map_id' inner
          have deeper : limit + 1 - level < value.depth ↔
              ∃ p ∈ inner.map fun child => (child, level + 1), limit + 1 - p.2 < p.1.depth := by
            have shift : limit + 1 - level < value.depth ↔
                limit + 1 - (level + 1) < depthOfItems inner := by omega
            rw [shift, lt_depthOfItems_iff]
            simp
          rw [ih, deeper]
          · simp [or_and_right, exists_or]
          · rw [List.map_append, values, countItems_append]
            omega

/-- The walk finds a value to exceed a limit exactly if its depth does. -/
theorem deeperThan_iff (value : Json) (limit : Nat) :
    value.deeperThan limit = true ↔ limit < value.depth := by
  have enough : countItems ([(value, 1)].map Prod.fst) ≤ value.count := by
    simp [countItems]
  rw [deeperThan, anyBelow_iff enough]
  simp

end DerivedTags.Json
