import DerivedTags.Proofs.Decimal.SmallIntegers
import DerivedTags.Proofs.Snippet.ConstantFolding

/-!
# Cutting a found text out of a text

Positions in a text count characters, the length of a text counts UTF-16 units. What a
snippet cuts out of a text, from the position where another text occurs and as long as
that text is, is that text and as many further characters as it has characters outside
the basic plane, if there are so many.
-/

namespace DerivedTags.Snippet

open Decimal (wholeLimit)

namespace Whole

variable {a b : Nat}

/-- A natural number below the bound is an integer of 64 bits. -/
theorem toInt_ofNat (small : a < wholeLimit) : (Int64.ofNat a).toInt = a :=
  Int64.toInt_ofNat_of_lt (Nat.lt_trans small (by decide))

/-- Natural numbers are added exactly below the bound. -/
theorem add?_ofNat (small : a + b < wholeLimit) :
    add? (Int64.ofNat a) (Int64.ofNat b) = some (Int64.ofNat (a + b)) := by
  rw [add?, Decimal.signed?_eq_some_iff, toInt_ofNat small, toInt_ofNat (by omega),
    toInt_ofNat (by omega)]
  rfl

end Whole

namespace Value

/-- A text given by its characters is the text with these characters. -/
theorem ofChars_eq_str_iff {cs : List Char} {s : String} : ofChars cs = .str s ↔ cs = s.toList := by
  rw [ofChars, Value.str.injEq]
  constructor
  · rintro rfl
    exact String.toList_ofList.symm
  · rintro rfl
    exact String.ofList_toList

/-- A natural number below the bound is the position that it says. -/
theorem positionArgument?_ofNat {args : List Value} {i k : Nat}
    (given : args[i]? = some (.int (Int64.ofNat k))) (small : k < wholeLimit) :
    positionArgument? args i = some k := by
  have number : (Value.int (Int64.ofNat k)).toNumber = Float.ofInt k := by
    rw [toNumber, Whole.toFloat, Whole.toInt_ofNat small]
  have size : (k : Int).natAbs < wholeLimit := small
  have nonneg : (0 : Int) ≤ k := Int.natCast_nonneg k
  simp only [positionArgument?, given, number, Decimal.isNaN_ofInt k,
    Decimal.not_ofInt_lt_zero size nonneg, if_false, Bool.false_eq_true]
  exact congrArg some (Int.ofNat_inj.mp (Decimal.toNat_toUInt64_ofInt size nonneg))

variable {s n : String} {before after : List Char}

/-- A text is found after as many characters as stand before its first occurrence. -/
theorem indexOf_of_cutAt (found : Text.cutAt n.toList s.toList = some (before, after)) :
    (Value.str s).method "indexOf" [.str n] = .ok (.int (Int64.ofNat before.length)) := by
  have position : Text.find? n.toList s.toList = some (Text.bytes before) := by
    rw [Text.find?, found]
    rfl
  have cut : textBefore (Text.bytes before) s.toList = .ok before := by
    rw [Text.eq_of_cutAt found, List.append_assoc]
    exact textBefore_bytes before _
  have needle : textArgument [.str n] 0 = n.toList := rfl
  change textMethod s "indexOf" [.str n] = _
  simp only [textMethod, needle, position, cut]
  rfl

/-- Between positions in order, of which the second may be behind the end, stand the
characters from the first position on, up to the second one. -/
theorem substring_of_positions {args : List Value} {a b : Nat}
    (start : positionArgument? args 0 = some a) (stop : positionArgument? args 1 = some b)
    (order : a ≤ b) (within : a ≤ s.toList.length) :
    (Value.str s).method "substring" args = .ok (.ofChars ((s.toList.drop a).take (b - a))) := by
  have first : min ((positionArgument? args 0).getD 0) s.toList.length = a := by
    rw [start]
    exact Nat.min_eq_left within
  have second : min ((positionArgument? args 1).getD s.toList.length) s.toList.length =
      min b s.toList.length := by rw [stop, Option.getD_some]
  have low : min a (min b s.toList.length) = a := by omega
  have high : max a (min b s.toList.length) = min b s.toList.length := by omega
  have cut : slice a (min b s.toList.length) s.toList =
      .ok ((s.toList.drop a).take (b - a)) := by
    rw [slice_of_le (by omega) (Nat.min_le_right _ _), Except.ok.injEq, List.take_eq_take_iff,
      List.length_drop]
    omega
  change (slice (min (min _ _) (min _ _)) (max (min _ _) (min _ _)) s.toList).map ofChars = _
  rw [first, second, low, high, cut]
  rfl

/-- Between natural numbers below the bound, in order and the first of them within the text,
stand as many characters as they lie apart, or all up to the end. -/
theorem substring_ofNat {low high : Nat} (order : low ≤ high) (within : low ≤ s.toList.length)
    (small : high < wholeLimit) :
    (Value.str s).method "substring" [.int (Int64.ofNat low), .int (Int64.ofNat high)] =
      .ok (.ofChars ((s.toList.drop low).take (high - low))) := by
  have start : positionArgument? [.int (Int64.ofNat low), .int (Int64.ofNat high)] 0 = some low :=
    positionArgument?_ofNat rfl (Nat.lt_of_le_of_lt order small)
  have stop : positionArgument? [.int (Int64.ofNat low), .int (Int64.ofNat high)] 1 = some high :=
    positionArgument?_ofNat rfl small
  exact substring_of_positions start stop order within

end Value

/-- The sum of natural numbers below the bound is an integer. -/
theorem addValues_ofNat {a b : Nat} (small : a + b < wholeLimit) :
    addValues (.int (Int64.ofNat a)) (.int (Int64.ofNat b)) = .int (Int64.ofNat (a + b)) := by
  rw [addValues, Whole.add?_ofNat small]

section Bound

variable {b : Bindings} {functions : FunctionTable}

/-- A path that begins with a bound name leads through the members of its value. -/
theorem Bindings.scope_resolve_bound {root : String} {v : Value} (bound : b.get? root = some v)
    (rest : Path) : b.scope.resolve (root :: rest) = settled (v.follow rest) := by
  have follows : b.resolve (root :: rest) = v.follow rest := by rw [resolve, bound]
  exact congrArg ExceptT.mk follows

/-- A call by path is of a method of a bound value, unless the table has a function of that
name. -/
theorem Expr.eval_call_bound {root name : String} {v : Value} {args : List Expr}
    {values : List Value} (bound : b.get? root = some v)
    (free : functions.get? (".".intercalate [root, name]) = none)
    (given : evalAll b.scope functions args = pure values) :
    (Expr.call [root, name] args).eval b.scope functions = settled (v.method name values) := by
  have alone : b.scope.call [root, name] values = none := rfl
  have receiver : b.scope.resolve [root] = (pure v : ExceptT Stop Id Value) :=
    Bindings.scope_resolve_bound bound []
  rw [eval_call, given, pure_bind]
  unfold invoke
  rw [alone]
  dsimp only
  rw [free]
  change b.scope.resolve [root] >>= (fun v => settled (v.method name values)) = _
  rw [receiver, pure_bind]

end Bound

/-- A list is what a cut behind its end keeps of a longer list only if the cut is at its end
or the longer list ends there as well. -/
theorem take_append_eq_left_iff {α : Type} {xs ys : List α} {k : Nat} (enough : xs.length ≤ k) :
    (xs ++ ys).take k = xs ↔ k = xs.length ∨ ys = [] := by
  rw [List.take_append, List.take_of_length_le enough, List.append_right_eq_self,
    List.take_eq_nil_iff]
  exact or_congr_left (by omega)

section Excerpt

variable {b : Bindings} {s n : String} (text : b.get? "s" = some (.str s))
  (needle : b.get? "n" = some (.str n))

/-- The call that looks for the text bound to `n` in the one bound to `s`. -/
def place : Expr := .call ["s", "indexOf"] [.var ["n"]]

/-- The position behind the place, by the length of the text bound to `n`. -/
def behind : Expr := .add [place, .var ["n", "length"]]

include text needle

/-- A method of the text with the needle as its argument. -/
theorem eval_call_needle {name : String}
    (free : FunctionTable.standard.get? (".".intercalate ["s", name]) = none) :
    (Expr.call ["s", name] [.var ["n"]]).eval b.scope .standard =
      settled ((Value.str s).method name [.str n]) := by
  have bound : (Expr.var ["n"]).eval b.scope .standard = (pure (.str n) : ExceptT _ Id _) :=
    Bindings.scope_resolve_bound needle []
  have argument : evalAll b.scope .standard [.var ["n"]] = (pure [.str n] : ExceptT _ Id _) := by
    rw [evalAll, bound, pure_bind]
    rfl
  exact Expr.eval_call_bound text free argument

variable {before after : List Char}
  (found : Text.cutAt n.toList s.toList = some (before, after))

include found

/-- What an excerpt evaluates to. -/
theorem eval_excerpt (small : Text.units s.toList < wholeLimit) :
    (Expr.call ["s", "substring"] [place, behind]).eval b.scope .standard =
      pure (.ofChars ((n.toList ++ after).take (Text.units n.toList))) := by
  have parts : s.toList = before ++ (n.toList ++ after) := by
    rw [Text.eq_of_cutAt found, List.append_assoc]
  have short := Text.length_le_units before
  have fits : before.length + Text.units n.toList < wholeLimit := by
    rw [parts, Text.units_append, Text.units_append] at small
    omega
  have start : place.eval b.scope .standard =
      (pure (.int (Int64.ofNat before.length)) : ExceptT Stop Id Value) := by
    rw [place, eval_call_needle text needle rfl, Value.indexOf_of_cutAt found]
    rfl
  have length : (Expr.var ["n", "length"]).eval b.scope .standard =
      (pure (.int (Int64.ofNat (Text.units n.toList))) : ExceptT Stop Id Value) :=
    Bindings.scope_resolve_bound needle ["length"]
  have stop : behind.eval b.scope .standard = (pure (.int
      (Int64.ofNat (before.length + Text.units n.toList))) : ExceptT Stop Id Value) := by
    rw [behind, Expr.eval_add_cons, start, pure_bind, Expr.evalSum_cons, length, pure_bind,
      addValues_ofNat fits]
    rfl
  have positions : evalAll b.scope .standard [place, behind] =
      (pure [.int (Int64.ofNat before.length),
        .int (Int64.ofNat (before.length + Text.units n.toList))] :
          ExceptT Stop Id (List Value)) := by
    rw [evalAll, start, pure_bind, evalAll, stop, pure_bind]
    rfl
  have within : before.length ≤ s.toList.length := by
    rw [parts, List.length_append]
    exact Nat.le_add_right _ _
  rw [Expr.eval_call_bound text rfl positions,
    Value.substring_ofNat (Nat.le_add_right _ _) within fits, parts, List.drop_left,
    Nat.add_sub_cancel_left]
  rfl

end Excerpt

namespace Compiled

/-- The text that asks whether `n` occurs in `s` compiles to that call. -/
theorem ofText_within : Compiled.ofText "s.includes(n)" =
    .ok (.ok ⟨"s.includes(n)", .call ["s", "includes"] [.var ["n"]]⟩) := by cbv

/-- The text that cuts `n` out of `s` compiles to the cut between the place and the position
behind it. -/
theorem ofText_excerpt :
    Compiled.ofText "s.substring(s.indexOf(n), s.indexOf(n) + n.length)" =
      .ok (.ok ⟨"s.substring(s.indexOf(n), s.indexOf(n) + n.length)",
        .call ["s", "substring"] [place, behind]⟩) := by cbv

variable {b : Bindings} {s n : String} (text : b.get? "s" = some (.str s))
  (needle : b.get? "n" = some (.str n))

include text needle

/-- What the question whether the one text occurs in the other is answered. -/
theorem evaluate_within (source : String) :
    Compiled.evaluate ⟨source, .call ["s", "includes"] [.var ["n"]]⟩ .standard b.scope =
      .ok (.bool (Text.occurs n.toList s.toList)) :=
  evaluate_of_eval (eval_call_needle text needle rfl)

/-- What is cut out of a text from the position of another text in it and by the length of
that text. If the one text, shorter than the bound, includes the other one, the cut begins
with the text that was looked for and goes on for no more characters than that has units
beyond its characters. It is that text exactly if all characters of that text are in the
basic plane or nothing follows it wherever it occurs. -/
theorem evaluate_excerpt_iff (small : Text.units s.toList < wholeLimit) :
    ∃ within excerpt,
      Compiled.ofText "s.includes(n)" = .ok (.ok within) ∧
      Compiled.ofText "s.substring(s.indexOf(n), s.indexOf(n) + n.length)" = .ok (.ok excerpt) ∧
      (within.evaluate .standard b.scope = .ok (.bool true) →
        (∃ more, excerpt.evaluate .standard b.scope = .ok (.ofChars (n.toList ++ more)) ∧
          n.toList.length + more.length ≤ Text.units n.toList) ∧
        (excerpt.evaluate .standard b.scope = .ok (.str n) ↔
          (∀ c ∈ n.toList, c.toNat < 65536) ∨
            ∀ front back, s.toList = front ++ n.toList ++ back → back = [])) := by
  refine ⟨_, _, ofText_within, ofText_excerpt, fun included => ?_⟩
  rw [evaluate_within text needle] at included
  have occurs : Text.occurs n.toList s.toList = true :=
    Value.bool.inj (Except.ok.inj included)
  obtain ⟨⟨before, after⟩, found⟩ := Option.isSome_iff_exists.mp occurs
  have least := Text.length_le_units n.toList
  have result (source : String) :
      Compiled.evaluate ⟨source, .call ["s", "substring"] [place, behind]⟩ .standard b.scope =
        .ok (.ofChars ((n.toList ++ after).take (Text.units n.toList))) :=
    evaluate_of_eval (eval_excerpt text needle found small)
  rw [result]
  constructor
  · refine ⟨after.take (Text.units n.toList - n.toList.length), ?_, ?_⟩
    · rw [List.take_append, List.take_of_length_le least]
    · have := List.length_take_le (Text.units n.toList - n.toList.length) after
      omega
  · rw [← Text.units_eq_length_iff, ← Text.eq_nil_iff_of_cutAt found,
      ← take_append_eq_left_iff least, Except.ok.injEq]
    exact Value.ofChars_eq_str_iff

omit text needle

/-- A letter between characters outside the basic plane is cut out as it is. -/
theorem evaluate_excerpt_letter : ∃ excerpt,
    Compiled.ofText "s.substring(s.indexOf(n), s.indexOf(n) + n.length)" = .ok (.ok excerpt) ∧
      excerpt.evaluate .standard (Bindings.scope ⟨[("s", .str "😀x😀"), ("n", .str "x")]⟩) =
        .ok (.str "x") := by
  have small : Text.units "😀x😀".toList < wholeLimit := by decide +kernel
  have occurs : Text.occurs "x".toList "😀x😀".toList = true := by decide +kernel
  have basic : ∀ c ∈ "x".toList, c.toNat < 65536 := List.forall_mem_singleton.mpr (by decide)
  obtain ⟨within, excerpt, asked, cut, value⟩ := evaluate_excerpt_iff
    (b := ⟨[("s", .str "😀x😀"), ("n", .str "x")]⟩) rfl rfl small
  have included := evaluate_within (b := ⟨[("s", .str "😀x😀"), ("n", .str "x")]⟩) rfl rfl
    "s.includes(n)"
  rw [occurs] at included
  cases asked.symm.trans ofText_within
  exact ⟨excerpt, cut, (value included).2.mpr (.inl basic)⟩

/-- A character outside the basic plane is cut out together with the letter behind it. -/
theorem evaluate_excerpt_ne : ∃ within excerpt,
    Compiled.ofText "s.includes(n)" = .ok (.ok within) ∧
    Compiled.ofText "s.substring(s.indexOf(n), s.indexOf(n) + n.length)" = .ok (.ok excerpt) ∧
      within.evaluate .standard (Bindings.scope ⟨[("s", .str "😀x"), ("n", .str "😀")]⟩) =
        .ok (.bool true) ∧
      excerpt.evaluate .standard (Bindings.scope ⟨[("s", .str "😀x"), ("n", .str "😀")]⟩) =
        .ok (.str "😀x") ∧
      excerpt.evaluate .standard (Bindings.scope ⟨[("s", .str "😀x"), ("n", .str "😀")]⟩) ≠
        .ok (.str "😀") := by
  have small : Text.units "😀x".toList < wholeLimit := by decide +kernel
  have found : Text.cutAt "😀".toList "😀x".toList = some ([], ['x']) := by decide +kernel
  have occurs : Text.occurs "😀".toList "😀x".toList = true := by decide +kernel
  have kept : (("😀".toList ++ ['x']).take (Text.units "😀".toList)) = "😀x".toList := by
    decide +kernel
  have included := evaluate_within (b := ⟨[("s", .str "😀x"), ("n", .str "😀")]⟩) rfl rfl
    "s.includes(n)"
  have value := eval_excerpt (b := ⟨[("s", .str "😀x"), ("n", .str "😀")]⟩) rfl rfl found small
  rw [occurs] at included
  rw [kept, Value.ofChars_eq_str_iff.mpr rfl] at value
  refine ⟨_, _, ofText_within, ofText_excerpt, included, evaluate_of_eval value, fun same => ?_⟩
  rw [evaluate_of_eval value] at same
  have texts : "😀x" = "😀" := Value.str.inj (Except.ok.inj same)
  exact absurd texts (by decide)

end Compiled

end DerivedTags.Snippet
