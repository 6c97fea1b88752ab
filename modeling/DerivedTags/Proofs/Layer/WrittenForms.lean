import DerivedTags.Layer.Definition
import DerivedTags.Proofs.Json.RoundTrip
import Mathlib.Data.List.TakeWhile

/-!
# The written forms of definitions

A definition with code can be written as a text in one of two ways and is read from exactly
these texts. Every definition that was made or read is read again from its triple, and from
the text of that triple.
-/

namespace DerivedTags.Layer.Definition

open Text (isBlank)

/-- The characters of a key: a lower case letter or an underscore, then lower case letters,
digits, colons and underscores. -/
inductive IsKeyText : List Char → Prop where
  /-- A key begins with a letter or an underscore. -/
  | cons {c : Char} {rest : List Char} (start : 'a' ≤ c ∧ c ≤ 'z' ∨ c = '_')
      (parts : ∀ d ∈ rest, 'a' ≤ d ∧ d ≤ 'z' ∨ '0' ≤ d ∧ d ≤ '9' ∨ d = ':' ∨ d = '_') :
      IsKeyText (c :: rest)

/-- What is accepted as the start of a key. -/
theorem isKeyStart_iff {c : Char} : isKeyStart c = true ↔ 'a' ≤ c ∧ c ≤ 'z' ∨ c = '_' := by
  change (decide (97 ≤ c.val) && decide (c.val ≤ 122) || c == '_') = true ↔ _
  simp [Char.le_def]

/-- What is accepted further on in a key. -/
theorem isKeyPart_iff {c : Char} : isKeyPart c = true ↔
    'a' ≤ c ∧ c ≤ 'z' ∨ '0' ≤ c ∧ c ≤ '9' ∨ c = ':' ∨ c = '_' := by
  change (decide (97 ≤ c.val) && decide (c.val ≤ 122) || c.isDigit || c == ':' || c == '_') =
    true ↔ _
  simp [Char.isDigit, Char.le_def, or_assoc]

/-- The check of a key accepts exactly the keys. -/
theorem isKey_iff {cs : List Char} : isKey cs = true ↔ IsKeyText cs := by
  cases cs with
  | nil => exact ⟨nofun, nofun⟩
  | cons c rest =>
    rw [isKey, Bool.and_eq_true, isKeyStart_iff, List.all_eq_true]
    simp only [isKeyPart_iff]
    exact ⟨fun both => .cons both.1 both.2, fun | .cons start parts => ⟨start, parts⟩⟩

/-- A character of a key is neither blank nor an equal sign. -/
theorem solid_of_isKeyPart {c : Char}
    (part : 'a' ≤ c ∧ c ≤ 'z' ∨ '0' ≤ c ∧ c ≤ '9' ∨ c = ':' ∨ c = '_') :
    isBlank c = false ∧ c ≠ '=' := by
  have range : 97 ≤ c.toNat ∧ c.toNat ≤ 122 ∨ 48 ≤ c.toNat ∧ c.toNat ≤ 57 ∨ c.toNat = 58 ∨
      c.toNat = 95 := by
    rcases part with letter | digit | rfl | rfl
    · exact .inl letter
    · exact .inr (.inl digit)
    · exact .inr (.inr (.inl rfl))
    · exact .inr (.inr (.inr rfl))
  constructor
  · simp only [isBlank, Bool.or_eq_false_iff, Bool.and_eq_false_iff, decide_eq_false_iff_not,
      beq_eq_false_iff_ne]
    omega
  · rintro rfl
    have : '='.toNat = 61 := rfl
    omega

namespace IsKeyText

variable {key : List Char}

/-- No character of a key is blank or an equal sign. -/
theorem solid (valid : IsKeyText key) {c : Char} (mem : c ∈ key) :
    isBlank c = false ∧ c ≠ '=' := by
  obtain @⟨head, rest, start, parts⟩ := valid
  rcases List.mem_cons.mp mem with rfl | later
  · exact solid_of_isKeyPart (start.imp_right fun same => .inr (.inr same))
  · exact solid_of_isKeyPart (parts c later)

/-- A key is not empty. -/
theorem ne_nil (valid : IsKeyText key) : key ≠ [] := by
  cases valid
  exact List.cons_ne_nil _ _

/-- A key does not begin with a blank, whatever follows it. -/
theorem head_solid (valid : IsKeyText key) (rest : List Char) :
    ∀ c ∈ (key ++ rest).head?, isBlank c = false := by
  intro c first
  rw [List.head?_append_of_ne_nil _ valid.ne_nil] at first
  exact (valid.solid (List.mem_of_mem_head? first)).1

/-- Blanks around a key are trimmed. -/
theorem trim_eq (valid : IsKeyText key) {before after : List Char}
    (front : ∀ c ∈ before, isBlank c = true) (back : ∀ c ∈ after, isBlank c = true) :
    Text.trim (before ++ key ++ after) = key := by
  refine Text.trim_surrounded front back ?_ fun c last => (valid.solid ?_).1
  · have first := valid.head_solid []
    rwa [List.append_nil] at first
  · exact List.mem_of_getLast? last

/-- Blanks around a key that does not end in a colon are dropped. -/
theorem splitStrict_lazy (valid : IsKeyText key) (plain : key.getLast? ≠ some ':')
    {before after : List Char} (front : ∀ c ∈ before, isBlank c = true)
    (back : ∀ c ∈ after, isBlank c = true) :
    splitStrict (before ++ key ++ after) = (key, false) := by
  rw [splitStrict, valid.trim_eq front back]
  exact if_neg (by simpa using plain)

/-- A colon behind a key marks the strict kind. Blanks around both are dropped. -/
theorem splitStrict_strict (valid : IsKeyText key) {before between after : List Char}
    (front : ∀ c ∈ before, isBlank c = true) (middle : ∀ c ∈ between, isBlank c = true)
    (back : ∀ c ∈ after, isBlank c = true) :
    splitStrict (before ++ key ++ between ++ ':' :: after) = (key, true) := by
  have whole : Text.trim (before ++ key ++ between ++ ':' :: after) =
      key ++ between ++ [':'] := by
    have parts : before ++ key ++ between ++ ':' :: after =
        before ++ (key ++ between ++ [':']) ++ after := by simp
    rw [parts]
    refine Text.trim_surrounded front back ?_ ?_
    · rw [List.append_assoc]
      exact valid.head_solid _
    · simp only [List.getLast?_concat, Option.mem_some_iff, forall_eq']
      decide
  have nothing : ∀ c ∈ [], isBlank c = true := nofun
  have inner : Text.trim (key ++ between) = key := valid.trim_eq nothing middle
  rw [splitStrict, whole, List.getLast?_concat, List.dropLast_concat, inner]
  rfl

end IsKeyText

/-- What is left after the colon of the strict kind and all blanks are dropped. -/
theorem exists_of_splitStrict {text key : List Char} {strict : Bool}
    (split : splitStrict text = (key, strict)) :
    ∃ before between after : List Char, (∀ c ∈ before, isBlank c = true) ∧
      (∀ c ∈ between, isBlank c = true) ∧ (∀ c ∈ after, isBlank c = true) ∧
      if strict then text = before ++ key ++ between ++ ':' :: after
      else key.getLast? ≠ some ':' ∧ text = before ++ key ++ after := by
  obtain ⟨before, after, front, back, parts⟩ := Text.exists_trim text
  by_cases colon : (Text.trim text).getLast? = some ':'
  · have ended : Text.trim text = (Text.trim text).dropLast ++ [':'] :=
      (List.dropLast_append_getLast? ':' colon).symm
    have whole : splitStrict text = (Text.trim (Text.trim text).dropLast, true) :=
      if_pos (by simpa using colon)
    obtain ⟨rfl, rfl⟩ := Prod.mk.inj (whole.symm.trans split)
    obtain ⟨lead, between, leading, middle, rest⟩ := Text.exists_trim (Text.trim text).dropLast
    refine ⟨before ++ lead, between, after, ?_, middle, back, ?_⟩
    · exact fun c mem => (List.mem_append.mp mem).elim (front c) (leading c)
    · rw [if_pos rfl]
      calc text = before ++ ((Text.trim text).dropLast ++ [':']) ++ after := by
            rw [← ended, ← parts]
        _ = before ++ (lead ++ Text.trim (Text.trim text).dropLast ++ between ++ [':']) ++
            after := by rw [← rest]
        _ = _ := by simp
  · have whole : splitStrict text = (Text.trim text, false) :=
      if_neg (by simpa using colon)
    obtain ⟨rfl, rfl⟩ := Prod.mk.inj (whole.symm.trans split)
    exact ⟨before, [], after, front, nofun, back, colon, parts⟩

/-- The texts in which a definition is written. Blanks may stand around the key and around
the colon of the strict kind, code is everything behind the first equal sign. -/
inductive Written : Definition → List Char → Prop where
  /-- Key, equal sign and code. The key does not end in a colon. -/
  | lazy {before key after : List Char} {code : String}
      (front : ∀ c ∈ before, isBlank c = true) (valid : IsKeyText key)
      (plain : key.getLast? ≠ some ':') (back : ∀ c ∈ after, isBlank c = true) :
      Written ⟨String.ofList key, some code, false⟩ (before ++ key ++ after ++ '=' :: code.toList)
  /-- Key, colon, equal sign and code. -/
  | strict {before key between after : List Char} {code : String}
      (front : ∀ c ∈ before, isBlank c = true) (valid : IsKeyText key)
      (middle : ∀ c ∈ between, isBlank c = true) (back : ∀ c ∈ after, isBlank c = true) :
      Written ⟨String.ofList key, some code, true⟩
        (before ++ key ++ between ++ ':' :: after ++ '=' :: code.toList)

/-- A definition with a key is accepted. -/
theorem checked_of_isKeyText {key : List Char} (valid : IsKeyText key) (snippet : Option String)
    (strict : Bool) (shown : String) :
    checked key snippet strict shown = .ok ⟨String.ofList key, snippet, strict⟩ :=
  if_pos (isKey_iff.mpr valid)

/-- Only a definition with a key is accepted, and as it is. -/
theorem of_checked {key : List Char} {snippet : Option String} {strict : Bool} {shown : String}
    {d : Definition} (accepted : checked key snippet strict shown = .ok d) :
    IsKeyText key ∧ d = ⟨String.ofList key, snippet, strict⟩ := by
  unfold checked at accepted
  split at accepted
  · rename_i valid
    exact ⟨isKey_iff.mp valid, (Except.ok.inj accepted).symm⟩
  · cases accepted

/-- A text with an equal sign is divided at the first one. -/
theorem parse_of_equalSign {entry : String} {front code : List Char}
    (parts : entry.toList = front ++ '=' :: code) (first : '=' ∉ front) :
    parse entry = checked (splitStrict front).1 (some (String.ofList code))
      (splitStrict front).2 entry := by
  have others : ∀ c ∈ front, (c != '=') = true := fun c mem =>
    bne_iff_ne.mpr fun same => first (same ▸ mem)
  have ends : ∀ c ∈ ('=' :: code).head?, (c != '=') = false := by simp
  obtain ⟨taken, left⟩ := Decimal.span_append others ends
  rw [← parts] at taken left
  unfold parse
  simp only [left, taken]

/-- A text without an equal sign is refused. -/
theorem parse_of_no_equalSign {entry : String} (none : '=' ∉ entry.toList) :
    parse entry = .error (.invalidTag entry "expected '<key>=<code>' or '<key>:=<code>'") := by
  have left : entry.toList.dropWhile (· != '=') = [] := by
    rw [List.dropWhile_eq_nil_iff]
    exact fun c mem => bne_iff_ne.mpr fun same => none (same ▸ mem)
  unfold parse
  simp only [left]

/-- What is read is a definition in one of its written forms. -/
theorem written_of_parse {entry : String} {d : Definition} (accepted : parse entry = .ok d) :
    Written d entry.toList := by
  by_cases sign : '=' ∈ entry.toList
  · obtain ⟨front, code, parts, first⟩ := List.eq_append_cons_of_mem sign
    rw [parse_of_equalSign parts first] at accepted
    obtain ⟨valid, rfl⟩ := of_checked accepted
    generalize split : splitStrict front = pair at valid
    obtain ⟨key, strict⟩ := pair
    obtain ⟨before, between, after, lead, middle, back, form⟩ := exists_of_splitStrict split
    rw [parts, ← String.toList_ofList (l := code), String.ofList_toList]
    cases strict with
    | false =>
      obtain ⟨plain, rfl⟩ := form
      exact .lazy lead valid plain back
    | true =>
      cases form
      exact .strict lead valid middle back
  · rw [parse_of_no_equalSign sign] at accepted
    cases accepted

/-- Blanks hold no equal sign. -/
theorem equalSign_not_mem {blanks : List Char} (blank : ∀ c ∈ blanks, isBlank c = true) :
    '=' ∉ blanks :=
  fun mem => absurd (blank '=' mem) (by decide)

/-- Nothing in front of the equal sign of the lazy form is one. -/
theorem front_of_lazy {before key after : List Char} (front : ∀ c ∈ before, isBlank c = true)
    (valid : IsKeyText key) (back : ∀ c ∈ after, isBlank c = true) :
    '=' ∉ before ++ key ++ after := by
  simp only [List.mem_append, not_or]
  exact ⟨⟨equalSign_not_mem front, fun mem => (valid.solid mem).2 rfl⟩, equalSign_not_mem back⟩

/-- Nothing in front of the equal sign of the strict form is one. -/
theorem front_of_strict {before key between after : List Char}
    (front : ∀ c ∈ before, isBlank c = true) (valid : IsKeyText key)
    (middle : ∀ c ∈ between, isBlank c = true) (back : ∀ c ∈ after, isBlank c = true) :
    '=' ∉ before ++ key ++ between ++ ':' :: after := by
  rw [List.mem_append, List.mem_cons]
  rintro (inner | sign | mem)
  · exact front_of_lazy front valid middle inner
  · exact absurd sign (by decide)
  · exact equalSign_not_mem back mem

/-- A definition is read from each of its written forms. -/
theorem parse_of_written {entry : String} {d : Definition} (written : Written d entry.toList) :
    parse entry = .ok d := by
  generalize shown : entry.toList = cs at written
  cases written with
  | lazy front valid plain back =>
    rw [parse_of_equalSign shown (front_of_lazy front valid back),
      valid.splitStrict_lazy plain front back, String.ofList_toList]
    exact checked_of_isKeyText valid _ _ _
  | strict front valid middle back =>
    rw [parse_of_equalSign shown (front_of_strict front valid middle back),
      valid.splitStrict_strict front middle back, String.ofList_toList]
    exact checked_of_isKeyText valid _ _ _

/-- A definition is read from exactly the texts in which it is written. -/
theorem parse_eq_ok_iff {entry : String} {d : Definition} :
    parse entry = .ok d ↔ Written d entry.toList := ⟨written_of_parse, parse_of_written⟩

/-- A definition in a written form has a key. -/
theorem Written.isKeyText {d : Definition} {text : List Char} (written : Written d text) :
    IsKeyText d.key.toList := by
  cases written with
  | lazy _ valid _ _ => rwa [String.toList_ofList]
  | strict _ valid _ _ => rwa [String.toList_ofList]

/-- The code of a written definition is everything behind the first equal sign. -/
theorem Written.exists_code {d : Definition} {text : List Char} (written : Written d text) :
    ∃ (front : List Char) (code : String), text = front ++ '=' :: code.toList ∧ '=' ∉ front ∧
      d.snippet = some code := by
  cases written with
  | lazy front valid _ back => exact ⟨_, _, rfl, front_of_lazy front valid back, rfl⟩
  | strict front valid middle back =>
    exact ⟨_, _, rfl, front_of_strict front valid middle back, rfl⟩

/-- The definitions that come from outside: made of parts, read from a text, or read from
JSON. -/
inductive Obtained : Definition → Prop where
  /-- From a key, code and a kind. -/
  | made {key : String} {snippet : Option String} {strict : Bool} {d : Definition}
      (accepted : make key snippet strict = .ok d) : Obtained d
  /-- From a text. -/
  | parsed {entry : String} {d : Definition} (accepted : parse entry = .ok d) : Obtained d
  /-- From a JSON value. -/
  | decoded {j : Json} {d : Definition} (accepted : ofJson? j = some d) : Obtained d

/-- A definition that was made of parts has a key. -/
theorem isKeyText_of_make {key : String} {snippet : Option String} {strict : Bool}
    {d : Definition} (accepted : make key snippet strict = .ok d) : IsKeyText d.key.toList := by
  obtain ⟨valid, rfl⟩ := of_checked accepted
  rwa [String.toList_ofList]

/-- A result is what a computation without error gives. -/
theorem of_toOption {ε α : Type} {x : Except ε α} {a : α} (given : x.toOption = some a) :
    x = .ok a := by
  cases x with
  | error _ => cases given
  | ok _ => exact congrArg _ (Option.some.inj given)

/-- Every definition from outside has a key. -/
theorem Obtained.isKeyText {d : Definition} (obtained : Obtained d) : IsKeyText d.key.toList := by
  cases obtained with
  | made accepted => exact isKeyText_of_make accepted
  | parsed accepted => exact (written_of_parse accepted).isKeyText
  | decoded accepted =>
    unfold ofJson? at accepted
    split at accepted
    · exact (written_of_parse (of_toOption accepted)).isKeyText
    · exact isKeyText_of_make (of_toOption accepted)
    · exact isKeyText_of_make (of_toOption accepted)
    · cases accepted

/-- A definition with a key is read from its triple. -/
theorem ofJson?_toJson_of_isKeyText {d : Definition} (valid : IsKeyText d.key.toList) :
    ofJson? d.toJson = some d := by
  have back (snippet : Option String) :
      (make d.key snippet d.strict).toOption = some ⟨d.key, snippet, d.strict⟩ := by
    rw [make, checked_of_isKeyText valid, String.ofList_toList]
    rfl
  obtain ⟨key, snippet, strict⟩ := d
  cases snippet with
  | none => exact back none
  | some code => exact back (some code)

/-- The triple of a definition is read from its text. -/
theorem parse_text_toJson (d : Definition) : Json.parse d.toJson.text = some d.toJson := by
  obtain ⟨key, snippet, strict⟩ := d
  have code : Json.Exact ((snippet.map Json.str).getD .null) := by
    cases snippet with
    | none => exact .null
    | some code => exact .str code
  have flat : ((snippet.map Json.str).getD .null).depth = 0 := by cases snippet <;> rfl
  have exact : Json.Exact (toJson ⟨key, snippet, strict⟩) := by
    refine .arr fun item mem => ?_
    simp only [List.mem_cons, List.not_mem_nil, or_false] at mem
    rcases mem with rfl | rfl | rfl
    · exact .str key
    · exact code
    · exact .bool strict
  refine exact.parseWithin_text ?_
  rw [toJson]
  simp only [Json.depth, Json.depthOfItems, flat]
  decide

/-- Definitions survive both of their written forms. A key, a colon, an equal sign and any code
are read as the strict definition with that key and code, and without the colon as the lazy one
unless the key itself ends in a colon; blanks around the key and around the colon change
nothing. Whatever is read has a key, and its code is everything behind the first equal sign.
A definition that was made, read from a text or read from JSON is read again from its triple,
also by way of the text of the triple. -/
theorem written_forms_read :
    (∀ key code before between after : String, IsKeyText key.toList →
      (∀ c ∈ before.toList, isBlank c = true) → (∀ c ∈ between.toList, isBlank c = true) →
      (∀ c ∈ after.toList, isBlank c = true) →
        parse (before ++ key ++ between ++ ":" ++ after ++ "=" ++ code) =
            .ok ⟨key, some code, true⟩ ∧
          (key.toList.getLast? ≠ some ':' →
            parse (before ++ key ++ after ++ "=" ++ code) = .ok ⟨key, some code, false⟩)) ∧
    (∀ entry d, parse entry = .ok d → IsKeyText d.key.toList ∧
      ∃ front code : String, entry = front ++ "=" ++ code ∧ '=' ∉ front.toList ∧
        d.snippet = some code) ∧
    ∀ d, Obtained d →
      ofJson? d.toJson = some d ∧ (Json.parse d.toJson.text).bind ofJson? = some d := by
  refine ⟨fun key code before between after valid front middle back => ⟨?_, fun plain => ?_⟩,
    fun entry d accepted => ?_, fun d obtained => ?_⟩
  · refine parse_of_written ?_
    have form : Written _ (_ ++ '=' :: code.toList) := .strict front valid middle back
    rw [String.ofList_toList] at form
    simpa using form
  · refine parse_of_written ?_
    have form : Written _ (_ ++ '=' :: code.toList) := .lazy front valid plain back
    rw [String.ofList_toList] at form
    simpa using form
  · have written := written_of_parse accepted
    obtain ⟨front, code, parts, first, same⟩ := written.exists_code
    refine ⟨written.isKeyText, String.ofList front, code, ?_, ?_, same⟩
    · rw [← String.toList_inj, parts]
      simp
    · rwa [String.toList_ofList]
  · have back := ofJson?_toJson_of_isKeyText obtained.isKeyText
    refine ⟨back, ?_⟩
    rw [parse_text_toJson]
    exact back

/-- A key that ends in a colon, blanks on all sides, code with signs of its own, and a
placeholder. -/
theorem written_forms_read_colon :
    parse (" \t" ++ "_a:" ++ " " ++ ":" ++ "" ++ "=" ++ "x := '='") =
        .ok ⟨"_a:", some "x := '='", true⟩ ∧
      parse (" \t" ++ "_a" ++ " " ++ "=" ++ "=:=") = .ok ⟨"_a", some "=:=", false⟩ ∧
      ofJson? (toJson ⟨"_a:", none, false⟩) = some ⟨"_a:", none, false⟩ := by
  have valid : IsKeyText "_a:".toList := isKey_iff.mp rfl
  have valid' : IsKeyText "_a".toList := isKey_iff.mp rfl
  have front : ∀ c ∈ " \t".toList, isBlank c = true := List.all_eq_true.mp rfl
  have middle : ∀ c ∈ " ".toList, isBlank c = true := List.all_eq_true.mp rfl
  have back : ∀ c ∈ "".toList, isBlank c = true := nofun
  have placeholder : make "_a:" none false = .ok ⟨"_a:", none, false⟩ := rfl
  exact ⟨(written_forms_read.1 _ _ _ _ _ valid front middle back).1,
    (written_forms_read.1 _ _ _ _ _ valid' front back middle).2 (by decide),
    (written_forms_read.2.2 _ (.made placeholder)).1⟩

end DerivedTags.Layer.Definition
