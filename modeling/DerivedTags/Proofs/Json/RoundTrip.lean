import DerivedTags.Json.Depth
import DerivedTags.Json.Parser
import DerivedTags.Json.Printer
import DerivedTags.Proofs.Decimal.Digits
import DerivedTags.Proofs.Json.Members

/-!
# JSON text read back

The compact text of a value is read as that value. This is said of the values whose
numbers are integers and whose objects keep their keys in order, each once, and holds
as long as the value nests no deeper than the reader goes.

The reader looks at what follows a value only to see that a number has ended. So each
kind of text is read back in front of any text that ends a number, and containers are
read back from their children.
-/

namespace DerivedTags.Json

/-- A hexadecimal digit is read back. -/
theorem hexValue?_hexDigit : ∀ n < 16, hexValue? (hexDigit n) = some n := by decide +kernel

/-- The code of a control character is read back. -/
theorem codeEscape_control {c : Char} (control : c.toNat < 32) (rest : List Char) :
    codeEscape ('0' :: '0' :: hexDigit (c.toNat / 16) :: hexDigit (c.toNat % 16) :: rest) =
      some (c, rest) := by
  have zero : hexValue? '0' = some 0 := hexValue?_hexDigit 0 (by omega)
  have high := hexValue?_hexDigit (c.toNat / 16) (by omega)
  have low := hexValue?_hexDigit (c.toNat % 16) (by omega)
  have unit : 4096 * 0 + 256 * 0 + 16 * (c.toNat / 16) + c.toNat % 16 = c.toNat := by omega
  have noFirst : ¬0xD800 ≤ c.toNat := by omega
  have noSecond : ¬0xDC00 ≤ c.toNat := by omega
  simp only [codeEscape, hexUnit, zero, high, low, unit, noFirst, noSecond, decide_false,
    Bool.false_and, Bool.false_eq_true, if_false, Char.ofNat_toNat]

/-- A character is written as an escape that stands for it, or as itself if it has no
meaning inside a text. -/
theorem escapeChar_cases (c : Char) :
    (∃ mark, escapeChar c = '\\' :: mark ∧
      ∀ rest, escaped (mark ++ rest) = some (c, rest)) ∨
    (escapeChar c = [c] ∧ c ≠ '"' ∧ c ≠ '\\' ∧ ¬c.toNat < 32) := by
  by_cases quote : c = '"'
  · subst quote
    exact .inl ⟨_, rfl, fun rest => rfl⟩
  by_cases slash : c = '\\'
  · subst slash
    exact .inl ⟨_, rfl, fun rest => rfl⟩
  by_cases feed : c = '\n'
  · subst feed
    exact .inl ⟨_, rfl, fun rest => rfl⟩
  by_cases carriage : c = '\r'
  · subst carriage
    exact .inl ⟨_, rfl, fun rest => rfl⟩
  by_cases tab : c = '\t'
  · subst tab
    exact .inl ⟨_, rfl, fun rest => rfl⟩
  by_cases back : c = '\x08'
  · subst back
    exact .inl ⟨_, rfl, fun rest => rfl⟩
  by_cases form : c = '\x0c'
  · subst form
    exact .inl ⟨_, rfl, fun rest => rfl⟩
  by_cases control : c.toNat < 32
  · have written : escapeChar c =
        ['\\', 'u', '0', '0', hexDigit (c.toNat / 16), hexDigit (c.toNat % 16)] := by
      simp [escapeChar, quote, slash, feed, carriage, tab, back, form, control]
    exact .inl ⟨_, written, codeEscape_control control⟩
  · have written : escapeChar c = [c] := by
      simp [escapeChar, quote, slash, feed, carriage, tab, back, form, control]
    exact .inr ⟨written, quote, slash, control⟩

/-- What stands for one character is read as that character. -/
theorem stringBody_escapeChar (c : Char) {steps : Nat} {rest s last : List Char}
    (body : stringBody steps rest = some (s, last)) :
    stringBody (steps + 1) (escapeChar c ++ rest) = some (c :: s, last) := by
  obtain ⟨mark, written, read⟩ | ⟨written, quote, slash, printable⟩ := escapeChar_cases c
  · rw [written, List.cons_append, stringBody, read]
    show (stringBody steps rest).bind _ = _
    rw [body]
    rfl
  · rw [written, List.singleton_append, stringBody, if_neg (by simpa using quote),
      if_neg (by simpa using slash), if_neg printable, body]
    rfl

/-- Escaped characters are read back up to the closing quote. -/
theorem stringBody_flatMap (cs rest : List Char) {steps : Nat} (enough : cs.length < steps) :
    stringBody steps (cs.flatMap escapeChar ++ '"' :: rest) = some (cs, rest) := by
  induction cs generalizing steps with
  | nil =>
    obtain ⟨more, rfl⟩ := Nat.exists_eq_succ_of_ne_zero (Nat.ne_of_gt enough)
    rfl
  | cons c cs ih =>
    rw [List.length_cons] at enough
    obtain ⟨more, rfl⟩ : ∃ more, steps = more + 1 := ⟨steps - 1, by omega⟩
    rw [List.flatMap_cons, List.append_assoc]
    exact stringBody_escapeChar c (ih (by omega))

/-- No character is written as nothing. -/
theorem length_le_flatMap (cs : List Char) : cs.length ≤ (cs.flatMap escapeChar).length := by
  induction cs with
  | nil => exact Nat.le_refl 0
  | cons c cs ih =>
    have one : 1 ≤ (escapeChar c).length := by
      obtain ⟨mark, written, _⟩ | ⟨written, _⟩ := escapeChar_cases c <;> simp [written]
    rw [List.flatMap_cons, List.length_append, List.length_cons]
    omega

/-- A text with its quotes, in front of anything. -/
theorem renderString_append (s : String) (rest : List Char) :
    renderString s ++ rest = '"' :: (s.toList.flatMap escapeChar ++ '"' :: rest) := by
  simp [renderString]

/-- A text is read back after its opening quote. -/
theorem stringAfterQuote_flatMap (s : String) (rest : List Char) :
    stringAfterQuote (s.toList.flatMap escapeChar ++ '"' :: rest) = some (s, rest) := by
  have long := length_le_flatMap s.toList
  rw [stringAfterQuote, stringBody_flatMap]
  · exact congrArg (fun text => some (text, rest)) String.ofList_toList
  · rw [List.length_append, List.length_cons]
    omega

/-- A text that ends a number: nothing, or what stands behind a value in a container. -/
def Ends (rest : List Char) : Prop := ∀ c ∈ rest.head?, c = ',' ∨ c = ']' ∨ c = '\x7d'

/-- The end of the whole text ends a number. -/
theorem Ends.nil : Ends [] := fun _ found => nomatch found

/-- A comma ends a number. -/
theorem Ends.comma (rest : List Char) : Ends (',' :: rest) := by simp [Ends]

/-- A closing bracket ends a number. -/
theorem Ends.bracket (rest : List Char) : Ends (']' :: rest) := by simp [Ends]

/-- A closing brace ends a number. -/
theorem Ends.brace (rest : List Char) : Ends ('\x7d' :: rest) := by simp [Ends]

/-- What ends a number is no digit. -/
theorem Ends.no_digit {rest : List Char} (ends : Ends rest) :
    ∀ c ∈ rest.head?, c.isDigit = false := by
  intro c found
  obtain rfl | rfl | rfl := ends c found <;> rfl

/-- No fraction and no exponent stand where a number has ended. -/
theorem Ends.no_fraction_no_exponent {rest : List Char} (ends : Ends rest) :
    optionalFraction rest = some (none, rest) ∧ optionalExponent rest = some (none, rest) := by
  cases rest with
  | nil => exact ⟨rfl, rfl⟩
  | cons c rest => obtain rfl | rfl | rfl := ends c rfl <;> exact ⟨rfl, rfl⟩

/-- The sign and the digits of an integer are read as that integer. -/
theorem integerNumber_digitsOf (n : Int64) :
    integerNumber (decide (n.toInt < 0)) (Decimal.digitsOf n.toInt.natAbs) = some (.int n) := by
  have fits : Decimal.signed? n.toInt = some n := Decimal.signed?_eq_some_iff.mpr rfl
  rw [integerNumber, Decimal.naturalOf_digitsOf]
  by_cases negative : n.toInt < 0
  · have size : -(n.toInt.natAbs : Int) = n.toInt := by omega
    have nonzero : (n.toInt.natAbs == 0) = false := by simpa using by omega
    simp only [negative, decide_true, if_true, nonzero, Bool.false_eq_true, if_false, size, fits]
  · have size : (n.toInt.natAbs : Int) = n.toInt := by omega
    simp only [negative, decide_false, Bool.false_eq_true, if_false, JsonNumber.ofInt?, size, fits]

/-- An integer is read back after its sign. -/
theorem numberBody_digitsOf (n : Int64) {rest : List Char} (ends : Ends rest) :
    numberBody (decide (n.toInt < 0)) (Decimal.digitsOf n.toInt.natAbs ++ rest) =
      some (ofInt n, rest) := by
  have plain := ends.no_fraction_no_exponent
  have some_digit : (Decimal.digitsOf n.toInt.natAbs).isEmpty = false := by
    simpa using Decimal.digitsOf_ne_nil
  have no_zero : ((Decimal.digitsOf n.toInt.natAbs).length > 1 &&
      (Decimal.digitsOf n.toInt.natAbs).head? == some '0') = false := by
    by_contra zeros
    simp only [Bool.not_eq_false, Bool.and_eq_true, decide_eq_true_eq, beq_iff_eq] at zeros
    obtain ⟨long, zero⟩ := zeros
    rw [Decimal.eq_zero_of_head?_digitsOf zero] at long
    exact absurd long (by decide)
  rw [numberBody, Decimal.spanDigits_digitsOf _ ends.no_digit]
  show (if (Decimal.digitsOf n.toInt.natAbs).isEmpty || _ then none else _) = _
  rw [some_digit, Bool.false_or, no_zero, if_neg Bool.false_ne_true, plain.1]
  show (optionalExponent rest).bind _ = _
  rw [plain.2]
  show (integerNumber _ _).bind _ = _
  rw [integerNumber_digitsOf]
  rfl

/-- What does not begin with a blank has none to leave out. -/
theorem skipBlank_cons {c : Char} (solid : isJsonBlank c = false) (rest : List Char) :
    skipBlank (c :: rest) = c :: rest := by
  rw [skipBlank, List.dropWhile_cons, solid, if_neg Bool.false_ne_true]

/-- A digit is no blank. -/
theorem isJsonBlank_digit {c : Char} (digit : c.isDigit = true) : isJsonBlank c = false := by
  by_contra blank
  simp only [isJsonBlank, Bool.not_eq_false, Bool.or_eq_true, beq_iff_eq] at blank
  obtain ((rfl | rfl) | rfl) | rfl := blank <;> exact absurd digit (by decide)

/-- A digit begins a number. -/
theorem value_digit {c : Char} (digit : c.isDigit = true) (levels : Nat) (rest : List Char) :
    value levels (c :: rest) = numberBody false (c :: rest) := by
  unfold value
  rw [skipBlank_cons (isJsonBlank_digit digit)]
  split
  all_goals first
    | rfl
    | rename_i begins
      obtain ⟨rfl, _⟩ := List.cons.inj begins
      exact absurd digit (by decide)

/-- An integer is read back. -/
theorem value_renderInt (n : Int64) (levels : Nat) {rest : List Char} (ends : Ends rest) :
    value levels (renderInt n.toInt ++ rest) = some (ofInt n, rest) := by
  have body := numberBody_digitsOf n ends
  rw [renderInt]
  split
  · rename_i negative
    rw [decide_eq_true negative] at body
    unfold value
    exact body
  · rename_i natural
    rw [decide_eq_false natural] at body
    obtain ⟨c, more, digits, digit⟩ := Decimal.exists_digit_cons n.toInt.natAbs
    rw [digits, List.cons_append] at body ⊢
    rw [value_digit digit]
    exact body

/-- The values that are read back: their numbers are integers and their objects keep
their keys in order, each once. -/
inductive Exact : Json → Prop where
  /-- The null value. -/
  | null : Exact .null
  /-- A truth value. -/
  | bool (b : Bool) : Exact (.bool b)
  /-- An integer. -/
  | int (n : Int64) : Exact (ofInt n)
  /-- A text. -/
  | str (s : String) : Exact (.str s)
  /-- An array of such values. -/
  | arr {items : List Json} (each : ∀ item ∈ items, Exact item) : Exact (.arr items)
  /-- An object of such values. -/
  | obj {members : List (String × Json)} (each : ∀ m ∈ members, Exact m.2)
      (ordered : (members.map Prod.fst).Pairwise (· < ·)) : Exact (.obj members)

/-- The text of a value begins with no blank and closes no array. -/
theorem Exact.front {j : Json} (exact : j.Exact) :
    ∃ c more, j.render = c :: more ∧ isJsonBlank c = false ∧ c ≠ ']' := by
  cases exact with
  | null => exact ⟨_, _, rfl, rfl, by decide⟩
  | bool b => cases b <;> exact ⟨_, _, rfl, rfl, by decide⟩
  | int n =>
    show ∃ c more, renderInt n.toInt = c :: more ∧ _
    rw [renderInt]
    split
    · exact ⟨_, _, rfl, rfl, by decide⟩
    · obtain ⟨c, more, digits, digit⟩ := Decimal.exists_digit_cons n.toInt.natAbs
      refine ⟨c, more, digits, isJsonBlank_digit digit, ?_⟩
      rintro rfl
      exact absurd digit (by decide)
  | str s => exact ⟨_, _, rfl, rfl, by decide⟩
  | arr each => exact ⟨_, _, rfl, rfl, by decide⟩
  | obj each ordered => exact ⟨_, _, rfl, rfl, by decide⟩

/-- A reader reads a value back in front of whatever ends a number. -/
def ReadsBack (read : List Char → Option (Json × List Char)) (j : Json) : Prop :=
  ∀ rest, Ends rest → read (j.render ++ rest) = some (j, rest)

section

variable {read : List Char → Option (Json × List Char)}

/-- Further items and the closing bracket end a number. -/
theorem Ends.moreItems (items : List Json) (rest : List Char) :
    Ends (renderMoreItems items ++ ']' :: rest) := by
  cases items with
  | nil => exact .bracket rest
  | cons item items => exact .comma _

/-- Further members and the closing brace end a number. -/
theorem Ends.moreMembers (members : List (String × Json)) (rest : List Char) :
    Ends (renderMoreMembers members ++ '\x7d' :: rest) := by
  cases members with
  | nil => exact .brace rest
  | cons first members => exact .comma _

/-- The items after the first one are read back. -/
theorem moreItems_renderMoreItems {items : List Json} (back : ∀ item ∈ items, ReadsBack read item)
    {steps : Nat} (enough : items.length < steps) (rest : List Char) :
    moreItems read steps (renderMoreItems items ++ ']' :: rest) = some (items, rest) := by
  induction items generalizing steps with
  | nil =>
    obtain ⟨more, rfl⟩ := Nat.exists_eq_succ_of_ne_zero (Nat.ne_of_gt enough)
    rfl
  | cons item items ih =>
    rw [List.length_cons] at enough
    obtain ⟨more, rfl⟩ : ∃ more, steps = more + 1 := ⟨steps - 1, by omega⟩
    have first := back item List.mem_cons_self _ (.moreItems items rest)
    have fewer : items.length < more := by omega
    have others := ih (fun other mem => back other (List.mem_cons_of_mem item mem)) fewer
    have split : renderMoreItems (item :: items) ++ ']' :: rest =
        ',' :: (item.render ++ (renderMoreItems items ++ ']' :: rest)) := by
      simp [renderMoreItems]
    rw [split]
    show (read (item.render ++ _)).bind _ = _
    rw [first]
    show (moreItems read more _).bind _ = _
    rw [others]
    rfl

/-- There are no more items than characters behind the first one. -/
theorem length_le_renderMoreItems (items : List Json) :
    items.length ≤ (renderMoreItems items).length := by
  induction items with
  | nil => exact Nat.le_refl 0
  | cons item items ih =>
    rw [renderMoreItems, List.length_append, List.length_cons, List.length_cons]
    omega

/-- An array is read back from its items. -/
theorem arrayAfterBracket_renderItems {items : List Json} (exact : ∀ item ∈ items, item.Exact)
    (back : ∀ item ∈ items, ReadsBack read item) (rest : List Char) :
    arrayAfterBracket read (renderItems items ++ ']' :: rest) = some (.arr items, rest) := by
  cases items with
  | nil => rfl
  | cons item items =>
    obtain ⟨c, more, begins, solid, open_⟩ := (exact item List.mem_cons_self).front
    have first := back item List.mem_cons_self _ (.moreItems items rest)
    have enough : items.length < (renderMoreItems items ++ ']' :: rest).length := by
      have long := length_le_renderMoreItems items
      rw [List.length_append, List.length_cons]
      omega
    have others := moreItems_renderMoreItems
      (fun other mem => back other (List.mem_cons_of_mem item mem)) enough rest
    rw [renderItems, List.append_assoc, arrayAfterBracket]
    split
    · rename_i closed
      rw [begins, List.cons_append, skipBlank_cons solid] at closed
      exact absurd (List.cons.inj closed).1 open_
    · show (read _).bind _ = _
      rw [first]
      show (moreItems read _ _).bind _ = _
      rw [others]
      rfl

/-- A member is read back from its value. -/
theorem member_renderString {j : Json} (back : ReadsBack read j) (key : String)
    {rest : List Char} (ends : Ends rest) :
    member read (renderString key ++ ':' :: (j.render ++ rest)) = some ((key, j), rest) := by
  rw [renderString_append]
  show (stringAfterQuote _).bind _ = _
  rw [stringAfterQuote_flatMap]
  show (read _).bind _ = _
  rw [back rest ends]
  rfl

/-- The members after the first one are read back. -/
theorem moreMembers_renderMoreMembers {members : List (String × Json)}
    (back : ∀ m ∈ members, ReadsBack read m.2) {steps : Nat} (enough : members.length < steps)
    (rest : List Char) :
    moreMembers read steps (renderMoreMembers members ++ '\x7d' :: rest) =
      some (members, rest) := by
  induction members generalizing steps with
  | nil =>
    obtain ⟨more, rfl⟩ := Nat.exists_eq_succ_of_ne_zero (Nat.ne_of_gt enough)
    rfl
  | cons entry members ih =>
    obtain ⟨key, j⟩ := entry
    rw [List.length_cons] at enough
    obtain ⟨more, rfl⟩ : ∃ more, steps = more + 1 := ⟨steps - 1, by omega⟩
    have first := member_renderString (back (key, j) List.mem_cons_self) key
      (.moreMembers members rest)
    have fewer : members.length < more := by omega
    have others := ih (fun other mem => back other (List.mem_cons_of_mem _ mem)) fewer
    have split : renderMoreMembers ((key, j) :: members) ++ '\x7d' :: rest =
        ',' :: (renderString key ++
          ':' :: (j.render ++ (renderMoreMembers members ++ '\x7d' :: rest))) := by
      simp [renderMoreMembers]
    rw [split]
    show (member read _).bind _ = _
    rw [first]
    show (moreMembers read more _).bind _ = _
    rw [others]
    rfl

/-- There are no more members than characters behind the first one. -/
theorem length_le_renderMoreMembers (members : List (String × Json)) :
    members.length ≤ (renderMoreMembers members).length := by
  induction members with
  | nil => exact Nat.le_refl 0
  | cons entry members ih =>
    obtain ⟨key, j⟩ := entry
    simp only [renderMoreMembers, List.length_append, List.length_cons]
    omega

/-- An object is read back from its members. -/
theorem objectAfterBrace_renderMembers {members : List (String × Json)}
    (ordered : (members.map Prod.fst).Pairwise (· < ·))
    (back : ∀ m ∈ members, ReadsBack read m.2) (rest : List Char) :
    objectAfterBrace read (renderMembers members ++ '\x7d' :: rest) =
      some (.obj members, rest) := by
  cases members with
  | nil => rfl
  | cons entry members =>
    obtain ⟨key, j⟩ := entry
    have first := member_renderString (back (key, j) List.mem_cons_self) key
      (.moreMembers members rest)
    have enough : members.length < (renderMoreMembers members ++ '\x7d' :: rest).length := by
      have long := length_le_renderMoreMembers members
      rw [List.length_append, List.length_cons]
      omega
    have others := moreMembers_renderMoreMembers
      (fun other mem => back other (List.mem_cons_of_mem _ mem)) enough rest
    have split : renderMembers ((key, j) :: members) ++ '\x7d' :: rest =
        renderString key ++
          ':' :: (j.render ++ (renderMoreMembers members ++ '\x7d' :: rest)) := by
      simp [renderMembers]
    rw [split, objectAfterBrace]
    show (member read _).bind _ = _
    rw [first]
    show (moreMembers read _ _).bind _ = _
    rw [others, ← object_of_ordered ordered]
    rfl

end

/-- A value is read back as long as it nests no deeper than the reader goes. -/
theorem Exact.readsBack {j : Json} (exact : j.Exact) {levels : Nat} (shallow : j.depth ≤ levels) :
    ReadsBack (value levels) j := by
  intro rest ends
  induction exact generalizing levels rest with
  | null => unfold value; rfl
  | bool b => unfold value; cases b <;> rfl
  | int n => exact value_renderInt n levels ends
  | str s =>
    rw [render, renderString_append]
    unfold value
    exact congrArg (Option.map _) (stringAfterQuote_flatMap s rest)
  | @arr items each ih =>
    rw [depth] at shallow
    obtain ⟨inner, rfl⟩ : ∃ inner, levels = inner + 1 := ⟨levels - 1, by omega⟩
    rw [render, List.append_assoc]
    refine arrayAfterBracket_renderItems each (fun item mem rest ends => ?_) rest
    have below := depth_le_depthOfItems mem
    exact ih item mem (by omega) rest ends
  | @obj members each ordered ih =>
    rw [depth] at shallow
    obtain ⟨inner, rfl⟩ : ∃ inner, levels = inner + 1 := ⟨levels - 1, by omega⟩
    rw [render, List.append_assoc]
    refine objectAfterBrace_renderMembers ordered (fun m mem rest ends => ?_) rest
    have below := depth_le_depthOfMembers mem
    exact ih m mem (by omega) rest ends

/-- The text of a value is read as the value. -/
theorem Exact.parseWithin_text {j : Json} (exact : j.Exact) {levels : Nat}
    (shallow : j.depth ≤ levels) : parseWithin levels j.text = some j := by
  have back := exact.readsBack shallow [] .nil
  rw [List.append_nil] at back
  rw [parseWithin, text, String.toList_ofList, back]
  rfl

end DerivedTags.Json
