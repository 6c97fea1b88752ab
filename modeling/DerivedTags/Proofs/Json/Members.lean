import Mathlib.Data.List.Induction
import Mathlib.Data.List.Nodup
import Mathlib.Data.String.Basic
import DerivedTags.Json.Basic

/-!
# Members of objects in any order

An object keeps its members in the order of their keys. Members with different keys
give the same object whatever order they come in, members in order stay as they are, and
what stood under a key still stands there.
-/

namespace DerivedTags.Json

/-- Members with different keys may be set in either order. -/
theorem setMember_comm {key other : String} (different : key ≠ other) (value old : Json)
    (members : List (String × Json)) :
    setMember key value (setMember other old members) =
      setMember other old (setMember key value members) := by
  induction members with
  | nil => grind [setMember]
  | cons entry rest ih => grind [setMember]

/-- Members with different keys give the same object in any order. -/
theorem object_perm {members others : List (String × Json)} (perm : members.Perm others)
    (nodup : (members.map Prod.fst).Nodup) : object others = object members := by
  refine congrArg obj (perm.foldl_eq' (fun a memA b memB sorted => ?_) []).symm
  by_cases same : a.1 = b.1
  · rw [List.inj_on_of_nodup_map nodup memA memB same]
  · exact setMember_comm (Ne.symm same) b.2 a.2 sorted

/-- A member whose key is above all others becomes the last one. -/
theorem setMember_of_forall_lt {key : String} {members : List (String × Json)}
    (above : ∀ m ∈ members, m.1 < key) (value : Json) :
    setMember key value members = members ++ [(key, value)] := by
  induction members with
  | nil => rfl
  | cons entry rest ih =>
    have lower : entry.1 < key := above entry List.mem_cons_self
    have different : (key == entry.1) = false := by simpa using ne_of_gt lower
    rw [setMember, if_neg (String.lt_asymm lower), different, if_neg Bool.false_ne_true,
      ih fun m mem => above m (List.mem_cons_of_mem entry mem)]
    rfl

/-- Members in the order of their keys are those of the object. -/
theorem object_of_ordered {members : List (String × Json)}
    (ordered : (members.map Prod.fst).Pairwise (· < ·)) : object members = .obj members := by
  refine congrArg obj ?_
  induction members using List.reverseRecOn with
  | nil => rfl
  | append_singleton front last ih =>
    rw [List.map_append, List.pairwise_append] at ordered
    obtain ⟨sorted, _, above⟩ := ordered
    rw [List.foldl_append, ih sorted]
    exact setMember_of_forall_lt
      (fun m mem => above m.1 (List.mem_map_of_mem mem) last.1 (List.mem_singleton.mpr rfl)) last.2

/-- After a member was set, the keys are its own and some of those before. -/
theorem eq_or_mem_of_mem_setMember {key other : String} {value : Json}
    {members : List (String × Json)}
    (mem : other ∈ (setMember key value members).map Prod.fst) :
    other = key ∨ other ∈ members.map Prod.fst := by
  induction members with
  | nil => exact .inl (List.mem_singleton.mp mem)
  | cons entry rest ih =>
    unfold setMember at mem
    split at mem
    · exact List.mem_cons.mp mem
    · split at mem
      · exact (List.mem_cons.mp mem).imp_right (List.mem_cons_of_mem _)
      · rcases List.mem_cons.mp mem with rfl | later
        · exact .inr List.mem_cons_self
        · exact (ih later).imp_right (List.mem_cons_of_mem _)

/-- Members stay in the order of their keys when one is set. -/
theorem ordered_setMember {members : List (String × Json)}
    (ordered : (members.map Prod.fst).Pairwise (· < ·)) (key : String) (value : Json) :
    ((setMember key value members).map Prod.fst).Pairwise (· < ·) := by
  induction members with
  | nil => exact List.pairwise_singleton _ key
  | cons entry rest ih =>
    obtain ⟨above, others⟩ := List.pairwise_cons.mp ordered
    unfold setMember
    split
    · rename_i before
      refine List.pairwise_cons.mpr ⟨fun other mem => ?_, ordered⟩
      rcases List.mem_cons.mp mem with rfl | later
      · exact before
      · exact String.lt_trans before (above other later)
    · split
      · rename_i same
        obtain rfl := beq_iff_eq.mp same
        exact ordered
      · rename_i notBefore different
        have behind : entry.1 < key :=
          lt_of_le_of_ne (not_lt.mp notBefore) fun same => different (beq_iff_eq.mpr same.symm)
        refine List.pairwise_cons.mpr ⟨fun other mem => ?_, ih others⟩
        rcases eq_or_mem_of_mem_setMember mem with rfl | later
        · exact behind
        · exact above other later

/-- The members of an object stand in the order of their keys. -/
theorem ordered_foldl_setMember (members : List (String × Json)) {sorted : List (String × Json)}
    (ordered : (sorted.map Prod.fst).Pairwise (· < ·)) :
    ((members.foldl (fun sorted m => setMember m.1 m.2 sorted) sorted).map Prod.fst).Pairwise
      (· < ·) := by
  induction members generalizing sorted with
  | nil => exact ordered
  | cons m rest ih => exact ih (ordered_setMember ordered m.1 m.2)

/-- The first entry is found under its key, under another one what is found in the rest. -/
theorem lookup_cons_eq_ite {α : Type} (k key : String) (value : α) (rest : List (String × α)) :
    ((k, value) :: rest).lookup key = if key = k then some value else rest.lookup key := by
  by_cases own : key = k
  · simp [own]
  · have no : (key == k) = false := beq_false_of_ne own
    simp [List.lookup_cons, own, no]

/-- Where all values are changed, the changed value stands under the key of the old one. -/
theorem lookup_map_snd {α β : Type} (change : α → β) (entries : List (String × α)) (key : String) :
    (entries.map fun entry => (entry.1, change entry.2)).lookup key =
      (entries.lookup key).map change := by
  induction entries with
  | nil => rfl
  | cons entry rest ih =>
    rw [List.map_cons, List.lookup_cons, List.lookup_cons, ih]
    cases key == entry.1 <;> rfl

/-- Under its key stands the member that was set, under another one what stood there. -/
theorem lookup_setMember (key other : String) (value : Json) (members : List (String × Json)) :
    (setMember key value members).lookup other =
      if other = key then some value else members.lookup other := by
  induction members with
  | nil => exact lookup_cons_eq_ite key other value []
  | cons entry rest ih =>
    obtain ⟨k, old⟩ := entry
    unfold setMember
    split
    · exact lookup_cons_eq_ite key other value _
    · split
      · rename_i same
        obtain rfl := beq_iff_eq.mp same
        rw [lookup_cons_eq_ite, lookup_cons_eq_ite]
        by_cases own : other = key <;> simp only [own, if_true, if_false]
      · rename_i different
        rw [lookup_cons_eq_ite, lookup_cons_eq_ite, ih]
        by_cases own : other = key
        · have no : key ≠ k := fun same => different (beq_iff_eq.mpr same)
          simp only [own, no, if_true, if_false]
        · simp only [own, if_false]

/-- Of members with different keys, set one after the other, each is found under its key. -/
theorem lookup_foldl_setMember {members : List (String × Json)}
    (nodup : (members.map Prod.fst).Nodup) (sorted : List (String × Json)) (key : String) :
    (members.foldl (fun sorted m => setMember m.1 m.2 sorted) sorted).lookup key =
      (members.lookup key).or (sorted.lookup key) := by
  induction members generalizing sorted with
  | nil => rfl
  | cons m rest ih =>
    obtain ⟨k, value⟩ := m
    rw [List.map_cons, List.nodup_cons] at nodup
    rw [List.foldl_cons, ih nodup.2, lookup_setMember, lookup_cons_eq_ite]
    by_cases own : key = k
    · have later : rest.lookup k = none :=
        List.lookup_eq_none_iff.mpr fun m mem =>
          bne_iff_ne.mpr fun same => nodup.1 (List.mem_map.mpr ⟨m, mem, same.symm⟩)
      simp [own, later]
    · simp only [own, if_false]

/-- Members with different keys become an object whose members stand in the order of their
keys, each with the value that it had. -/
theorem exists_object {members : List (String × Json)} (nodup : (members.map Prod.fst).Nodup) :
    ∃ sorted, object members = .obj sorted ∧ (sorted.map Prod.fst).Pairwise (· < ·) ∧
      ∀ key, sorted.lookup key = members.lookup key :=
  ⟨_, rfl, ordered_foldl_setMember members List.Pairwise.nil, fun key =>
    (lookup_foldl_setMember nodup [] key).trans Option.or_none⟩

end DerivedTags.Json
