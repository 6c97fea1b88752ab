import DerivedTags.Proofs.Snippet.TextPositions

/-!
# Splitting and joining

A text is split at the occurrences of a separator, each of them the first one behind those
before it, so that no part holds the separator and joining the parts with it gives the text
back. An empty separator parts all characters.
-/

namespace DerivedTags

namespace Text

variable {needle cs before after : List Char}

/-- A needle that begins somewhere in a text is found. -/
theorem isSome_cutAt (front needle back : List Char) :
    (cutAt needle (front ++ needle ++ back)).isSome = true := by
  induction front with
  | nil =>
    cases needle with
    | nil => cases back <;> rfl
    | cons c needle =>
      have found : (c :: needle).isPrefixOf (c :: (needle ++ back)) = true :=
        List.isPrefixOf_iff_prefix.mpr ⟨back, rfl⟩
      change (cutAt (c :: needle) (c :: (needle ++ back))).isSome = true
      rw [cutAt, if_pos found]
      rfl
  | cons c front ih =>
    rw [List.cons_append, List.cons_append, cutAt]
    split
    · rfl
    · rwa [Option.isSome_map]

/-- A needle is not found exactly if it occurs nowhere. -/
theorem cutAt_eq_none_iff : cutAt needle cs = none ↔ ¬needle <:+: cs := by
  constructor
  · rintro none ⟨front, back, rfl⟩
    have found := isSome_cutAt front needle back
    rw [none] at found
    cases found
  · intro absent
    cases found : cutAt needle cs with
    | none => rfl
    | some parts => exact absurd ⟨parts.1, parts.2, (eq_of_cutAt found).symm⟩ absent

/-- A text is cut around the needle where no occurrence begins earlier. -/
theorem cutAt_eq_some_iff : cutAt needle cs = some (before, after) ↔
    cs = before ++ needle ++ after ∧
      ∀ front back, cs = front ++ needle ++ back → before.length ≤ front.length := by
  refine ⟨fun found => ⟨eq_of_cutAt found, fun _ _ => length_le_of_cutAt found⟩, ?_⟩
  rintro ⟨rfl, first⟩
  obtain ⟨⟨front, back⟩, found⟩ := Option.isSome_iff_exists.mp (isSome_cutAt before needle after)
  have same := eq_of_cutAt found
  have length : before.length = front.length :=
    Nat.le_antisymm (first front back same) (length_le_of_cutAt found rfl)
  rw [List.append_assoc, List.append_assoc] at same
  obtain ⟨rfl, rest⟩ := List.append_inj same length
  rw [found, List.append_cancel_left rest]

/-- Passing over characters is splitting what is behind them. -/
theorem splitFrom_eq_splitOn (separator : List Char) (passing : Nat) (cs : List Char) :
    splitFrom separator passing cs = splitOn separator (cs.drop passing) := by
  induction cs generalizing passing with
  | nil => cases passing <;> rfl
  | cons c cs ih =>
    cases passing with
    | zero => rfl
    | succ n => exact ih n

variable {separator : List Char}

/-- A text without the separator is its only part. -/
theorem splitOn_of_absent (absent : cutAt separator cs = none) : splitOn separator cs = [cs] := by
  induction cs with
  | nil => rfl
  | cons c cs ih =>
    rw [cutAt] at absent
    split at absent
    · cases absent
    · rename_i elsewhere
      rw [splitOn, splitFrom, if_neg elsewhere]
      have rest := ih (Option.map_eq_none_iff.mp absent)
      rw [splitOn] at rest
      rw [rest]
      rfl

section Separator

variable (nonempty : separator ≠ [])

include nonempty

/-- What stands before the first separator is the first part; the other ones are those of
what stands behind it. -/
theorem splitOn_of_cutAt (found : cutAt separator cs = some (before, after)) :
    splitOn separator cs = before :: splitOn separator after := by
  induction cs generalizing before with
  | nil =>
    rw [cutAt, if_neg (by simpa using nonempty)] at found
    cases found
  | cons c cs ih =>
    rw [cutAt] at found
    split at found
    · rename_i here
      obtain ⟨rfl, rfl⟩ := Prod.mk.inj (Option.some.inj found)
      obtain ⟨n, length⟩ : ∃ n, separator.length = n + 1 :=
        Nat.exists_eq_succ_of_ne_zero (by simpa using nonempty)
      rw [splitOn, splitFrom, if_pos here, splitFrom_eq_splitOn, length]
      rfl
    · rename_i elsewhere
      obtain ⟨⟨front, back⟩, later, same⟩ := Option.map_eq_some_iff.mp found
      obtain ⟨rfl, rfl⟩ := Prod.mk.inj same
      have rest := ih later
      rw [splitOn] at rest
      rw [splitOn, splitFrom, if_neg elsewhere, rest]
      rfl

/-- A property of texts holds of all of them if it holds of those without the separator and
passes from what is behind the first separator to the whole. -/
theorem cut_induction {motive : List Char → Prop}
    (absent : ∀ cs, cutAt separator cs = none → motive cs)
    (found : ∀ cs before after, cutAt separator cs = some (before, after) → motive after →
      motive cs) (cs : List Char) : motive cs := by
  induction length : cs.length using Nat.strong_induction_on generalizing cs with
  | _ n ih =>
    cases cut : cutAt separator cs with
    | none => exact absent cs cut
    | some parts =>
      have total := congrArg List.length (eq_of_cutAt cut)
      have size := List.length_pos_iff.mpr nonempty
      simp only [List.length_append] at total
      exact found cs parts.1 parts.2 cut (ih parts.2.length (by omega) parts.2 rfl)

/-- There is at least one part. -/
theorem splitOn_ne_nil (cs : List Char) : splitOn separator cs ≠ [] := by
  cases cut : cutAt separator cs with
  | none =>
    rw [splitOn_of_absent cut]
    exact List.cons_ne_nil _ _
  | some parts =>
    rw [splitOn_of_cutAt nonempty cut]
    exact List.cons_ne_nil _ _

/-- The parts joined with the separator are the text. -/
theorem joinWith_splitOn (cs : List Char) : joinWith separator (splitOn separator cs) = cs := by
  induction cs using cut_induction nonempty with
  | absent cs cut =>
    rw [splitOn_of_absent cut]
    rfl
  | found cs before after cut ih =>
    obtain ⟨part, parts, others⟩ := List.exists_cons_of_ne_nil (splitOn_ne_nil nonempty after)
    rw [splitOn_of_cutAt nonempty cut, others, joinWith, ← others, ih]
    exact (eq_of_cutAt cut).symm

/-- No part holds the separator. -/
theorem not_infix_of_mem_splitOn {part : List Char} (mem : part ∈ splitOn separator cs) :
    ¬separator <:+: part := by
  induction cs using cut_induction nonempty with
  | absent cs cut =>
    rw [splitOn_of_absent cut, List.mem_singleton] at mem
    rw [mem]
    exact cutAt_eq_none_iff.mp cut
  | found cs before after cut ih =>
    rw [splitOn_of_cutAt nonempty cut, List.mem_cons] at mem
    rcases mem with rfl | later
    · rintro ⟨front, back, rfl⟩
      have whole : cs = front ++ separator ++ (back ++ separator ++ after) := by
        rw [eq_of_cutAt cut]
        simp
      have earlier := length_le_of_cutAt cut whole
      have size := List.length_pos_iff.mpr nonempty
      simp only [List.length_append] at earlier
      omega
    · exact ih later

end Separator

/-- How often a text occurs in another one, counted from the left: each occurrence that counts
is the first one behind those counted before. -/
inductive CountedFromLeft (needle : List Char) : List Char → Nat → Prop where
  /-- There is no occurrence. -/
  | none {cs : List Char} (absent : ¬needle <:+: cs) : CountedFromLeft needle cs 0
  /-- The first occurrence, and those behind it. -/
  | more {before after : List Char} {n : Nat}
      (first : ∀ front back, before ++ needle ++ after = front ++ needle ++ back →
        before.length ≤ front.length)
      (others : CountedFromLeft needle after n) :
      CountedFromLeft needle (before ++ needle ++ after) (n + 1)

/-- There is one part more than there are separators. -/
theorem countedFromLeft_iff (nonempty : separator ≠ []) {n : Nat} :
    CountedFromLeft separator cs n ↔ (splitOn separator cs).length = n + 1 := by
  constructor
  · intro counted
    induction counted with
    | none absent => rw [splitOn_of_absent (cutAt_eq_none_iff.mpr absent)]; rfl
    | more first _ ih =>
      rw [splitOn_of_cutAt nonempty (cutAt_eq_some_iff.mpr ⟨rfl, first⟩), List.length_cons, ih]
  · intro length
    induction cs using cut_induction nonempty generalizing n with
    | absent cs cut =>
      rw [splitOn_of_absent cut] at length
      obtain rfl : n = 0 := by simpa using length.symm
      exact .none (cutAt_eq_none_iff.mp cut)
    | found cs before after cut ih =>
      rw [splitOn_of_cutAt nonempty cut, List.length_cons, Nat.add_left_inj] at length
      obtain ⟨rfl, first⟩ := cutAt_eq_some_iff.mp cut
      obtain ⟨k, more⟩ := Nat.exists_eq_succ_of_ne_zero
        (List.length_pos_iff.mpr (splitOn_ne_nil nonempty after)).ne'
      rw [← length, more]
      exact .more first (ih more)

/-- Characters joined with nothing between them are the text. -/
theorem joinWith_singletons (cs : List Char) : joinWith [] (cs.map fun c => [c]) = cs := by
  induction cs with
  | nil => rfl
  | cons c cs ih =>
    cases cs with
    | nil => rfl
    | cons d cs => exact congrArg (c :: ·) ih

end Text

namespace Snippet

namespace Value

/-- Texts are shown as they are. -/
theorem displayItems_texts (parts : List (List Char)) :
    displayItems (parts.map ofChars) = parts := by
  induction parts with
  | nil => rfl
  | cons part parts ih =>
    rw [List.map_cons, displayItems, ih]
    exact congrArg (· :: parts) String.toList_ofList

/-- The parts of a text as a snippet sees them. -/
theorem method_split (s t : String) : (Value.str s).method "split" [.str t] =
    .ok (.list ((splitText t.toList s.toList).map ofChars)) := rfl

/-- Texts are joined with the text that is given. -/
theorem method_join (parts : List (List Char)) (t : String) :
    (Value.list (parts.map ofChars)).method "join" [.str t] =
      .ok (.ofChars (Text.joinWith t.toList parts)) := by
  have items := displayItems_texts parts
  change Except.ok (ofChars (Text.joinWith t.toList (displayItems (parts.map ofChars)))) = _
  rw [items]

/-- The parts of a text joined with what it was split at are the text. -/
theorem joinWith_splitText (separator cs : List Char) :
    Text.joinWith separator (splitText separator cs) = cs := by
  cases separator with
  | nil => exact Text.joinWith_singletons cs
  | cons c rest => exact Text.joinWith_splitOn (List.cons_ne_nil c rest) cs

/-- A text includes another one exactly if that occurs in it. -/
theorem method_includes (s t : String) : (Value.str s).method "includes" [.str t] =
    .ok (.bool (decide (t.toList <:+: s.toList))) := by
  have occurs : Text.occurs t.toList s.toList = decide (t.toList <:+: s.toList) := by
    rw [Text.occurs, Bool.eq_iff_iff, decide_eq_true_iff, Option.isSome_iff_ne_none, ne_eq,
      Text.cutAt_eq_none_iff, not_not]
  exact congrArg (fun b => Except.ok (Value.bool b)) occurs

end Value

section Bound

variable {b : Bindings} {s t : String} (text : b.get? "s" = some (.str s))
  (separator : b.get? "t" = some (.str t))

include separator

/-- The text bound to `t` as the only argument. -/
theorem evalAll_separator : evalAll b.scope .standard [.var ["t"]] =
    (pure [.str t] : ExceptT Stop Id (List Value)) := by
  have bound : (Expr.var ["t"]).eval b.scope .standard = (pure (.str t) : ExceptT Stop Id Value) :=
    Bindings.scope_resolve_bound separator []
  rw [evalAll, bound, pure_bind]
  rfl

include text

/-- The call that splits the text bound to `s` at the text bound to `t`. -/
theorem eval_split : (Expr.call ["s", "split"] [.var ["t"]]).eval b.scope .standard =
    (pure (.list ((Value.splitText t.toList s.toList).map Value.ofChars)) :
      ExceptT Stop Id Value) := by
  rw [Expr.eval_call_bound text rfl (evalAll_separator separator), Value.method_split]
  rfl

/-- The call that joins the parts with the text bound to `t` gives the text bound to `s`. -/
theorem eval_join :
    (Expr.method (.call ["s", "split"] [.var ["t"]]) "join" [.var ["t"]]).eval b.scope .standard =
      (pure (.str s) : ExceptT Stop Id Value) := by
  have whole : Value.ofChars s.toList = .str s := Value.ofChars_eq_str_iff.mpr rfl
  rw [Expr.eval_method, eval_split text separator, pure_bind, evalAll_separator separator,
    pure_bind, Value.method_join, Value.joinWith_splitText, whole]
  rfl

/-- Splitting a text and joining its parts with the same separator gives the text back, also
where the separator is empty. If it is not empty, no part includes it, and there is one part
more than it occurs in the text, occurrences counted from the left without overlap. -/
theorem evaluate_split_join : ∃ (split joined : Compiled) (parts : List String),
    Compiled.ofText "s.split(t)" = .ok (.ok split) ∧
    Compiled.ofText "s.split(t).join(t)" = .ok (.ok joined) ∧
    split.evaluate .standard b.scope = .ok (.list (parts.map .str)) ∧
    joined.evaluate .standard b.scope = .ok (.str s) ∧
    (t ≠ "" →
      (∀ part ∈ parts, ¬t.toList <:+: part.toList ∧
        (Value.str part).method "includes" [.str t] = .ok (.bool false)) ∧
      ∃ n, (∀ m, Text.CountedFromLeft t.toList s.toList m ↔ m = n) ∧ parts.length = n + 1) := by
  have texts : (Value.splitText t.toList s.toList).map Value.ofChars =
      ((Value.splitText t.toList s.toList).map String.ofList).map Value.str :=
    (List.map_map ..).symm
  have split := eval_split text separator
  rw [texts] at split
  refine ⟨⟨"s.split(t)", .call ["s", "split"] [.var ["t"]]⟩,
    ⟨"s.split(t).join(t)", .method (.call ["s", "split"] [.var ["t"]]) "join" [.var ["t"]]⟩,
    (Value.splitText t.toList s.toList).map String.ofList, by cbv, by cbv,
    Compiled.evaluate_of_eval split, Compiled.evaluate_of_eval (eval_join text separator),
    fun given => ?_⟩
  have nonempty : t.toList ≠ [] := fun none => given (String.toList_inj.mp none)
  have parts : Value.splitText t.toList s.toList = Text.splitOn t.toList s.toList :=
    if_neg (by simpa using nonempty)
  rw [parts]
  constructor
  · intro part mem
    obtain ⟨chars, inside, rfl⟩ := List.mem_map.mp mem
    have absent : ¬t.toList <:+: (String.ofList chars).toList := by
      rw [String.toList_ofList]
      exact Text.not_infix_of_mem_splitOn nonempty inside
    refine ⟨absent, ?_⟩
    rw [Value.method_includes, decide_eq_false absent]
  · obtain ⟨n, length⟩ := Nat.exists_eq_succ_of_ne_zero
      (List.length_pos_iff.mpr (Text.splitOn_ne_nil nonempty s.toList)).ne'
    refine ⟨n, fun m => ?_, by rw [List.length_map, length]⟩
    rw [Text.countedFromLeft_iff nonempty, length, Nat.succ_inj, eq_comm]

omit text separator

/-- A separator that overlaps itself, at the start of a text. -/
theorem evaluate_split_join_overlap : ∃ (joined : Compiled) (parts : List String),
    Compiled.ofText "s.split(t).join(t)" = .ok (.ok joined) ∧
    joined.evaluate .standard (Bindings.scope ⟨[("s", .str "aaa"), ("t", .str "aa")]⟩) =
      .ok (.str "aaa") ∧
    (∀ part ∈ parts, ¬"aa".toList <:+: part.toList) ∧ parts.length = 2 := by
  obtain ⟨_, joined, parts, _, compiled, _, back, rest⟩ := evaluate_split_join
    (b := ⟨[("s", .str "aaa"), ("t", .str "aa")]⟩) rfl rfl
  obtain ⟨none, n, count, length⟩ := rest (by decide)
  have once : Text.CountedFromLeft "aa".toList "aaa".toList 1 :=
    (Text.countedFromLeft_iff (by decide)).mpr (by decide)
  obtain rfl := (count 1).mp once
  exact ⟨joined, parts, compiled, back, fun part mem => (none part mem).1, length⟩

end Bound

end Snippet

end DerivedTags
