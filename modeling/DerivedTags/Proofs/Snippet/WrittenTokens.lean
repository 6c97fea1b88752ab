import DerivedTags.Proofs.Decimal.Digits
import DerivedTags.Snippet.Lexer
import Mathlib.Data.List.Chain

/-!
# Tokens written out and read back

Tokens that are written one after the other, with blanks between them, are read again as they
were. A blank is needed only where a token would otherwise go on into the next one; for an
operator that is where a longer operator or a number would begin.
-/

namespace DerivedTags.Snippet

open Text (isBlank isLetter isNumeral)

/-- The two styles of quotes around a text. -/
inductive Quote where
  /-- An apostrophe on either side. -/
  | single
  /-- A double quote on either side. -/
  | double

namespace Quote

/-- The character that begins and ends a text. -/
def char : Quote → Char
  | single => '\''
  | double => '"'

/-- How a character is written inside a text. Only the backslash and the quote that would end
the text are escaped. -/
def escape (quote : Quote) (c : Char) : List Char :=
  if c = '\\' ∨ c = quote.char then ['\\', c] else [c]

end Quote

/-- The characters of a name: letters, numerals, underscores and dollar signs, and at the
start no numeral unless it is a letter too. -/
inductive IsName : List Char → Prop where
  /-- A name is not empty. -/
  | cons {c : Char} {rest : List Char} (start : isLetter c = true ∨ c = '_' ∨ c = '$')
      (parts : ∀ d ∈ rest, isLetter d = true ∨ isNumeral d = true ∨ d = '_' ∨ d = '$') :
      IsName (c :: rest)

namespace Token

/-- The tokens that can be written out. A number is an integer from zero up, as a sign is an
operator of its own, and a name has the characters of one. -/
def Writable : Token → Prop
  | number n => ∃ i : Int64, n = .int i ∧ 0 ≤ i
  | name s => IsName s.toList
  | _ => True

/-- A token as it is written: a text between quotes with its escapes, any other token as it
is shown. -/
def written (quote : Quote) : Token → List Char
  | text s => quote.char :: s.toList.flatMap quote.escape ++ [quote.char]
  | token => token.display.toList

end Token

/-- An operator ends before this text: together they begin with no longer operator, and a
dot does not meet a digit. -/
structure Operator.EndsBefore (o : Operator) (rest : List Char) : Prop where
  /-- What both begin with is no longer than the operator. -/
  longest : ∀ longer ∈ Operator.all, longer.chars <+: o.chars ++ rest →
    longer.chars.length ≤ o.chars.length
  /-- A dot and a digit would be the start of a number. -/
  undotted : o = .dot → ∀ c ∈ rest.head?, c.isDigit = false

/-- A token with the blanks behind it. -/
structure Piece where
  /-- The token. -/
  token : Token
  /-- The quotes, if the token is a text. -/
  quote : Quote
  /-- What is written behind the token. -/
  gap : List Char
  /-- The token can be written. -/
  writable : token.Writable
  /-- Only blanks are written behind it. -/
  blank : ∀ c ∈ gap, isBlank c = true

namespace Piece

/-- The characters of the token. -/
def text (piece : Piece) : List Char := piece.token.written piece.quote

/-- The characters of the token and the blanks behind it. -/
def chars (piece : Piece) : List Char := piece.text ++ piece.gap

/-- Two neighbours are apart: there is a blank between them, or the first one is an operator
that ends before the second one. -/
def Apart (piece next : Piece) : Prop :=
  piece.gap ≠ [] ∨ ∃ o, piece.token = .op o ∧ o.EndsBefore next.text

end Piece

/-- A token ends before this text. -/
def Token.EndsBefore : Token → List Char → Prop
  | .number _, rest => ∀ c ∈ rest.head?, c.isDigit = false ∧ c ≠ '.' ∧ c ≠ 'e' ∧ c ≠ 'E'
  | .name _, rest => ∀ c ∈ rest.head?, isNamePart c = false
  | .op o, rest => o.EndsBefore rest
  | _, _ => True

/-- All blanks. -/
def blanks : List Char :=
  ['\t', '\n', '\x0b', '\x0c', '\r', ' ', '\u0085', '\u00a0', '\u1680', '\u2000', '\u2001',
    '\u2002', '\u2003', '\u2004', '\u2005', '\u2006', '\u2007', '\u2008', '\u2009', '\u200a',
    '\u2028', '\u2029', '\u202f', '\u205f', '\u3000']

/-- A blank is listed. -/
theorem mem_blanks {c : Char} (blank : isBlank c = true) : c ∈ blanks := by
  have points : c.toNat ∈ blanks.map Char.toNat := by
    simp only [isBlank, Bool.or_eq_true, Bool.and_eq_true, decide_eq_true_eq, beq_iff_eq] at blank
    change c.toNat ∈ [9, 10, 11, 12, 13, 32, 133, 160, 5760, 8192, 8193, 8194, 8195, 8196, 8197,
      8198, 8199, 8200, 8201, 8202, 8232, 8233, 8239, 8287, 12288]
    simp only [List.mem_cons, List.not_mem_nil, or_false]
    omega
  obtain ⟨d, mem, same⟩ := List.mem_map.mp points
  rwa [← Char.toNat_inj.mp same]

/-- Whether a number or a name can go on with a character. -/
def goesOn (c : Char) : Bool :=
  c.isDigit || c == '.' || c == 'e' || c == 'E' || isNamePart c

/-- Nothing goes on with a blank. -/
theorem goesOn_of_isBlank {c : Char} (blank : isBlank c = true) : goesOn c = false := by
  have none : blanks.any goesOn = false := by decide +kernel
  simpa using List.any_eq_false.mp none c (mem_blanks blank)

/-- What goes on with a number or a name is no blank. -/
theorem isBlank_of_part {c : Char} (part : c.isDigit = true ∨ isNamePart c = true) :
    isBlank c = false := by
  by_contra blank
  have none := goesOn_of_isBlank (by simpa using blank)
  rcases part with digit | name
  · simp [goesOn, digit] at none
  · simp [goesOn, name] at none

/-- No operator has a blank in it. -/
theorem Operator.isBlank_of_mem_chars {o : Operator} {c : Char} (mem : c ∈ o.chars) :
    isBlank c = false := by
  have solid : o.chars.any isBlank = false := by cases o <;> rfl
  simpa using List.any_eq_false.mp solid c mem

/-- An operator ends before a blank and at the end of a text. -/
theorem Operator.endsBefore_blank (o : Operator) {rest : List Char}
    (blank : ∀ c ∈ rest.head?, isBlank c = true) : o.EndsBefore rest := by
  have undotted : ∀ c ∈ rest.head?, c.isDigit = false := fun c first => by
    have none := goesOn_of_isBlank (blank c first)
    simp only [goesOn, Bool.or_eq_false_iff] at none
    exact none.1.1.1.1
  refine ⟨fun longer _ start => ?_, fun _ => undotted⟩
  cases rest with
  | nil => simpa using start.length_le
  | cons c rest =>
    by_contra long
    have inside : o.chars.length < longer.chars.length := by omega
    have same : longer.chars[o.chars.length] = c := by
      rw [start.getElem inside, List.getElem_append_right (le_refl _)]
      simp
    have solid : isBlank c = false := isBlank_of_mem_chars (same ▸ List.getElem_mem inside)
    rw [blank c rfl] at solid
    contradiction

/-- The first two characters of an operator of three are an operator. -/
theorem Operator.exists_shorter (o : Operator) (long : 2 < o.chars.length) :
    ∃ shorter : Operator, shorter.chars = o.chars.take 2 := by
  cases o with
  | identical => exact ⟨equal, rfl⟩
  | distinct => exact ⟨unequal, rfl⟩
  | _ => simp [chars] at long

/-- No operator has more than three characters or none. -/
theorem Operator.length_chars (o : Operator) : 0 < o.chars.length ∧ o.chars.length ≤ 3 := by
  cases o <;> decide

/-- What comes after the next token does not matter to where an operator ends. -/
theorem Operator.EndsBefore.append {o : Operator} {front : List Char} (ends : o.EndsBefore front)
    (filled : front ≠ []) (rest : List Char) : o.EndsBefore (front ++ rest) where
  longest longer listed start := by
    rw [← List.append_assoc] at start
    have one := List.length_pos_iff.mpr filled
    obtain ⟨_, most⟩ := longer.length_chars
    have own := o.length_chars
    by_cases within : longer.chars.length ≤ (o.chars ++ front).length
    · exact ends.longest longer listed
        (List.prefix_of_prefix_length_le start (List.prefix_append _ _) within)
    · rw [List.length_append] at within
      obtain ⟨shorter, taken⟩ := longer.exists_shorter (by omega)
      have both : shorter.chars = o.chars ++ front := by
        have size : (o.chars ++ front).length = 2 := by rw [List.length_append]; omega
        rw [taken, List.prefix_iff_eq_take.mp (List.prefix_of_prefix_length_le
          (List.prefix_append (o.chars ++ front) rest) start (by rw [size]; omega)), size]
      have bound := ends.longest shorter shorter.mem_all (both ▸ List.prefix_rfl)
      rw [both, List.length_append] at bound
      omega
  undotted dot := by
    obtain ⟨c, more, rfl⟩ := List.exists_cons_of_ne_nil filled
    exact ends.undotted dot

/-- Every token ends before a blank and at the end of a text. -/
theorem Token.endsBefore_blank (token : Token) {rest : List Char}
    (blank : ∀ c ∈ rest.head?, isBlank c = true) : token.EndsBefore rest := by
  have ends : ∀ c ∈ rest.head?, (((c.isDigit = false ∧ c ≠ '.') ∧ c ≠ 'e') ∧ c ≠ 'E') ∧
      isNamePart c = false := fun c first => by
    simpa [goesOn] using goesOn_of_isBlank (blank c first)
  cases token with
  | number n =>
    intro c first
    obtain ⟨⟨⟨⟨digit, dot⟩, lower⟩, upper⟩, _⟩ := ends c first
    exact ⟨digit, dot, lower, upper⟩
  | name s =>
    intro c first
    exact (ends c first).2
  | op o => exact o.endsBefore_blank blank
  | opening b => trivial
  | closing b => trivial
  | text s => trivial

/-- The characters begin with this token, and the rest follows it. -/
def Begins (cs : List Char) (token : Token) (rest : List Char) : Prop :=
  ∃ c more, cs = c :: more ∧ isBlank c = false ∧ tokenAt c more = .ok (token, rest)

/-- The brackets and the quotes. -/
def marks : List Char := ['(', ')', '[', ']', '\'', '"']

/-- No name begins with a bracket or a quote. -/
theorem isNameStart_of_mem_marks {c : Char} (mark : c ∈ marks) : isNameStart c = false := by
  have none : marks.any isNameStart = false := rfl
  simpa using List.any_eq_false.mp none c mark

/-- No name begins with a digit of ASCII. -/
theorem isNameStart_of_isDigit {c : Char} (digit : c.isDigit = true) : isNameStart c = false := by
  have range : 48 ≤ c.toNat ∧ c.toNat ≤ 57 := by
    simpa [Char.isDigit, UInt32.le_iff_toNat_le] using digit
  have alpha : c.isAlpha = false := by
    change (decide (65 ≤ c.toNat ∧ c.toNat ≤ 90) || decide (97 ≤ c.toNat) && decide (c.toNat ≤ 122))
      = false
    simp only [Bool.or_eq_false_iff, Bool.and_eq_false_iff, decide_eq_false_iff_not]
    omega
  have underscore : c ≠ '_' := by
    rintro rfl
    contradiction
  have dollar : c ≠ '$' := by
    rintro rfl
    contradiction
  rw [isNameStart, isLetter, if_pos (by omega), alpha]
  simp [underscore, dollar]

/-- A token that begins with neither bracket nor quote is a number, a name or an operator. -/
theorem tokenAt_of_not_mem_marks {c : Char} (other : c ∉ marks) (rest : List Char) :
    tokenAt c rest =
      if c.isDigit || (c == '.' && digitFollows rest) then
        let tail := (numberTail (c == '.') rest).cons [c]
        match numberOf tail.chars tail.isFloat with
        | some n => .ok (.number n, tail.rest)
        | none => .error (.invalidNumber (String.ofList tail.chars))
      else if isNameStart c then
        .ok (.name (String.ofList (c :: rest.takeWhile isNamePart)), rest.dropWhile isNamePart)
      else
        match operatorAt (c :: rest) with
        | some (o, after) => .ok (.op o, after)
        | none => .error (.unexpectedChar c) := by
  simp only [marks, List.mem_cons, List.not_mem_nil, or_false, not_or] at other
  obtain ⟨opening, closing, left, right, single, double⟩ := other
  rw [tokenAt, if_neg (by simpa using opening), if_neg (by simpa using closing),
    if_neg (by simpa using left), if_neg (by simpa using right)]
  exact if_neg (by simpa using And.intro single double)

section Reading

variable {cs rest : List Char}

/-- An opening bracket is read by itself. -/
theorem begins_opening (b : Bracket) :
    Begins ((Token.opening b).display.toList ++ rest) (.opening b) rest := by
  cases b with
  | round => exact ⟨'(', rest, rfl, by decide, rfl⟩
  | square => exact ⟨'[', rest, rfl, by decide, rfl⟩

/-- A closing bracket is read by itself. -/
theorem begins_closing (b : Bracket) :
    Begins ((Token.closing b).display.toList ++ rest) (.closing b) rest := by
  cases b with
  | round => exact ⟨')', rest, rfl, by decide, rfl⟩
  | square => exact ⟨']', rest, rfl, by decide, rfl⟩

/-- An escaped text is read up to the quote that ends it. -/
theorem textBody_escaped (quote : Quote) (cs rest : List Char) :
    textBody quote.char (cs.flatMap quote.escape ++ quote.char :: rest) = some (cs, rest) := by
  induction cs with
  | nil => cases quote <;> simp [textBody, Quote.char]
  | cons c cs ih =>
    rw [List.flatMap_cons, List.append_assoc, Quote.escape]
    by_cases special : c = '\\' ∨ c = quote.char
    · have itself : unescape c = c := by
        rcases special with rfl | rfl
        · rfl
        · cases quote <;> rfl
      rw [if_pos special, List.cons_append, List.singleton_append, textBody, ih, Option.map_some,
        itself]
    · obtain ⟨noEscape, noQuote⟩ := not_or.mp special
      rw [if_neg special, List.singleton_append, textBody, ih]
      · simp [noQuote]
      · exact fun slash _ => noEscape slash
      · exact fun _ _ slash _ => noEscape slash

/-- A text is read with its escapes resolved. -/
theorem begins_text (quote : Quote) (s : String) :
    Begins ((Token.text s).written quote ++ rest) (.text s) rest := by
  refine ⟨quote.char, s.toList.flatMap quote.escape ++ quote.char :: rest, ?_, ?_, ?_⟩
  · simp [Token.written]
  · cases quote <;> decide
  · have body := textBody_escaped quote s.toList rest
    cases quote <;> simp_all [tokenAt, Quote.char]

/-- Digits are read up to what goes on with no number. -/
theorem numberTail_digits {digits : List Char} (all : ∀ c ∈ digits, c.isDigit = true)
    (ends : ∀ c ∈ rest.head?, c.isDigit = false ∧ c ≠ '.' ∧ c ≠ 'e' ∧ c ≠ 'E') :
    numberTail false (digits ++ rest) = ⟨digits, false, rest⟩ := by
  induction digits with
  | nil =>
    cases rest with
    | nil => rfl
    | cons c rest =>
      obtain ⟨digit, dot, lower, upper⟩ := ends c rfl
      rw [List.nil_append, numberTail.eq_def]
      simp [digit, dot, lower, upper]
  | cons c digits ih =>
    rw [List.cons_append, numberTail.eq_def]
    dsimp only
    rw [if_pos (all c List.mem_cons_self), ih fun d mem => all d (List.mem_cons_of_mem c mem)]
    rfl

/-- An integer from zero up is read again. -/
theorem begins_number {i : Int64} (nonneg : 0 ≤ i)
    (ends : (Token.number (.int i)).EndsBefore rest) :
    Begins ((Token.number (.int i)).display.toList ++ rest) (.number (.int i)) rest := by
  have positive : 0 ≤ i.toInt := Int64.le_iff_toInt_le.mp nonneg
  have shown : (Token.number (.int i)).display.toList = Decimal.digitsOf i.toInt.natAbs := by
    simp [Token.display, Json.renderNumber, Json.renderInt, not_lt.mpr positive]
  obtain ⟨c, more, digits, digit⟩ := Decimal.exists_digit_cons i.toInt.natAbs
  have all : ∀ d ∈ more, d.isDigit = true := fun d mem =>
    Decimal.isDigit_of_mem_digitsOf (digits ▸ List.mem_cons_of_mem c mem)
  have other : c ∉ marks := by
    intro mark
    have none : marks.any Char.isDigit = false := rfl
    exact List.any_eq_false.mp none c mark digit
  have point : (c == '.') = false := by
    rw [beq_eq_false_iff_ne]
    rintro rfl
    contradiction
  have value : numberOf (c :: more) false = some (.int i) := by
    rw [numberOf, if_neg nofun, ← digits, Decimal.int64?_digitsOf nonneg]
  refine ⟨c, more ++ rest, by rw [shown, digits, List.cons_append], ?_, ?_⟩
  · exact isBlank_of_part (.inl digit)
  · rw [tokenAt_of_not_mem_marks other, if_pos (by rw [digit]; rfl), point,
      numberTail_digits all ends]
    simp only [NumberTail.cons, List.singleton_append, value]

/-- A name is read as far as it goes. -/
theorem begins_name {s : String} (named : IsName s.toList) (ends : (Token.name s).EndsBefore rest) :
    Begins ((Token.name s).display.toList ++ rest) (.name s) rest := by
  obtain ⟨cs, rfl⟩ : ∃ cs, s = String.ofList cs := ⟨s.toList, String.ofList_toList.symm⟩
  rw [String.toList_ofList] at named
  obtain @⟨c, more, start, parts⟩ := named
  have first : isNameStart c = true := by simpa [isNameStart, or_assoc] using start
  have all : ∀ d ∈ more, isNamePart d = true := fun d mem => by
    simpa [isNamePart, or_assoc] using parts d mem
  have other : c ∉ marks := fun mark => by simp [isNameStart_of_mem_marks mark] at first
  have noNumber : (c.isDigit || (c == '.' && digitFollows (more ++ rest))) = false := by
    rw [Bool.or_eq_false_iff, Bool.and_eq_false_iff, beq_eq_false_iff_ne]
    refine ⟨?_, .inl ?_⟩
    · by_contra digit
      simp [isNameStart_of_isDigit (by simpa using digit)] at first
    · rintro rfl
      simp [show isNameStart '.' = false by decide] at first
  obtain ⟨taken, left⟩ := Decimal.span_append all ends
  refine ⟨c, more ++ rest, by simp [Token.display], isBlank_of_part (.inr ?_), ?_⟩
  · simp only [isNameStart, Bool.or_eq_true] at first
    simp only [isNamePart, Bool.or_eq_true]
    tauto
  · rw [tokenAt_of_not_mem_marks other, noNumber, if_neg nofun, if_pos first, taken, left]

/-- How an operator begins. -/
theorem Operator.exists_chars (o : Operator) : ∃ c more, o.chars = c :: more ∧ c ∉ marks ∧
    c.isDigit = false ∧ isNameStart c = false ∧ (c = '.' → o = .dot ∧ more = []) := by
  cases o <;> exact ⟨_, _, rfl, by decide, by decide, by decide, by decide⟩

/-- Of the operators that fit, the longest one is read. -/
theorem operatorAt_of_endsBefore {o : Operator} (ends : o.EndsBefore rest) :
    operatorAt (o.chars ++ rest) = some (o, rest) := by
  have sorted : Operator.all.Pairwise fun a b => b.chars.length ≤ a.chars.length := by decide
  have fits : (o.chars.isPrefixOf (o.chars ++ rest)) = true :=
    List.isPrefixOf_iff_prefix.mpr (List.prefix_append _ _)
  cases found : Operator.all.find? fun a => a.chars.isPrefixOf (o.chars ++ rest) with
  | none => exact absurd fits (List.find?_eq_none.mp found o o.mem_all)
  | some first =>
    obtain ⟨start, before, after, listed, shorter⟩ := List.find?_eq_some_iff_append.mp found
    have start := List.isPrefixOf_iff_prefix.mp start
    have size : o.chars.length ≤ first.chars.length := by
      have mem := o.mem_all
      rw [listed, List.mem_append, List.mem_cons] at mem
      rw [listed, List.pairwise_append, List.pairwise_cons] at sorted
      rcases mem with early | rfl | late
      · simpa [fits] using shorter o early
      · rfl
      · exact sorted.2.1.1 o late
    have same : first.chars = o.chars := by
      have bound := ends.longest first first.mem_all start
      have prior := List.prefix_of_prefix_length_le start (List.prefix_append _ _) bound
      exact prior.eq_of_length (Nat.le_antisymm bound size)
    rw [operatorAt, found, Option.map_some, Operator.chars_injective same, List.drop_left]

/-- An operator is read where no longer one fits. -/
theorem begins_op {o : Operator} (ends : o.EndsBefore rest) :
    Begins ((Token.op o).display.toList ++ rest) (.op o) rest := by
  obtain ⟨c, more, chars, other, digit, name, dot⟩ := o.exists_chars
  have solid : isBlank c = false :=
    Operator.isBlank_of_mem_chars (o := o) (chars ▸ List.mem_cons_self)
  have noNumber : (c.isDigit || (c == '.' && digitFollows (more ++ rest))) = false := by
    rw [digit, Bool.false_or, Bool.and_eq_false_iff, beq_eq_false_iff_ne]
    by_cases point : c = '.'
    · obtain ⟨rfl, rfl⟩ := dot point
      refine .inr ?_
      cases rest with
      | nil => rfl
      | cons d rest => exact ends.undotted rfl d rfl
    · exact .inl point
  have cut : c :: (more ++ rest) = o.chars ++ rest := by rw [chars, List.cons_append]
  refine ⟨c, more ++ rest, ?_, solid, ?_⟩
  · simp [Token.display, Operator.text, cut]
  · rw [tokenAt_of_not_mem_marks other, noNumber, if_neg nofun, name, if_neg nofun, cut,
      operatorAt_of_endsBefore ends]

/-- A piece is read as its token where that ends. -/
theorem Piece.begins (piece : Piece) (ends : piece.token.EndsBefore rest) :
    Begins (piece.text ++ rest) piece.token rest := by
  obtain ⟨token, quote, gap, writable, blank⟩ := piece
  cases token with
  | opening b => exact begins_opening b
  | closing b => exact begins_closing b
  | number n =>
    obtain ⟨i, rfl, nonneg⟩ := writable
    exact begins_number nonneg ends
  | text s => exact begins_text quote s
  | name s => exact begins_name writable ends
  | op o => exact begins_op ends

end Reading

/-- Blanks are skipped and the token in front is read. -/
theorem scan_begins {front cs rest : List Char} {token : Token}
    (blank : ∀ c ∈ front, isBlank c = true) (begins : Begins cs token rest) (bound : Nat) :
    scan (bound + 1) (front ++ cs) =
      ⟨token :: (scan bound rest).tokens, (scan bound rest).fault⟩ := by
  obtain ⟨c, more, rfl, solid, read⟩ := begins
  have trimmed : Text.trimStart (front ++ c :: more) = c :: more := by
    rw [Text.trimStart_append blank, Text.trimStart_of_head (by simpa using solid)]
  simp only [scan, trimmed, read]

/-- In blanks there is no token. -/
theorem scan_blank {front : List Char} (blank : ∀ c ∈ front, isBlank c = true) (bound : Nat) :
    scan bound front = ⟨[], none⟩ := by
  cases bound with
  | zero => rfl
  | succ bound =>
    have trimmed : Text.trimStart front = [] := by
      have all := Text.trimStart_append blank []
      rwa [List.append_nil] at all
    simp only [scan, trimmed]

namespace Piece

/-- What is written for a token is not empty. -/
theorem text_ne_nil (piece : Piece) : piece.text ≠ [] := by
  have ends : piece.token.EndsBefore [] := piece.token.endsBefore_blank nofun
  obtain ⟨c, more, text, _⟩ := piece.begins ends
  rw [List.append_nil] at text
  exact text ▸ List.cons_ne_nil c more

/-- A piece that is apart from the next one, if there is one, ends where its token does. -/
theorem endsBefore {piece : Piece} {pieces : List Piece}
    (apart : ∀ next ∈ pieces.head?, piece.Apart next) :
    piece.token.EndsBefore (piece.gap ++ pieces.flatMap chars) := by
  by_cases gap : piece.gap = []
  · cases pieces with
    | nil => exact piece.token.endsBefore_blank (by simp [gap])
    | cons next pieces =>
      rcases apart next rfl with filled | ⟨o, operator, ends⟩
      · contradiction
      · rw [operator, gap, List.nil_append, List.flatMap_cons, chars, List.append_assoc]
        exact ends.append next.text_ne_nil _
  · obtain ⟨c, more, cons⟩ := List.exists_cons_of_ne_nil gap
    refine piece.token.endsBefore_blank fun d first => ?_
    rw [cons, List.cons_append, List.head?_cons, Option.mem_some_iff] at first
    exact first ▸ piece.blank c (cons ▸ List.mem_cons_self)

/-- There are no more pieces than characters. -/
theorem length_le_flatMap (pieces : List Piece) :
    pieces.length ≤ (pieces.flatMap chars).length := by
  induction pieces with
  | nil => exact Nat.le_refl 0
  | cons piece pieces ih =>
    have filled := List.length_pos_iff.mpr piece.text_ne_nil
    simp only [List.flatMap_cons, List.length_append, List.length_cons, chars]
    omega

/-- Pieces that are apart are read as their tokens. -/
theorem scan_flatMap {pieces : List Piece} (apart : pieces.IsChain Apart) {front : List Char}
    (blank : ∀ c ∈ front, isBlank c = true) {bound : Nat} (enough : pieces.length ≤ bound) :
    scan bound (front ++ pieces.flatMap chars) = ⟨pieces.map token, none⟩ := by
  induction pieces generalizing front bound with
  | nil =>
    rw [List.flatMap_nil, List.append_nil]
    exact scan_blank blank bound
  | cons piece pieces ih =>
    obtain ⟨next, later⟩ := List.isChain_cons.mp apart
    obtain ⟨bound, rfl⟩ : ∃ fewer, bound = fewer + 1 := ⟨bound - 1, by simp at enough; omega⟩
    have rest := ih later piece.blank (Nat.le_of_succ_le_succ enough)
    rw [List.flatMap_cons, chars, List.append_assoc,
      scan_begins blank (piece.begins (endsBefore next)), rest]
    rfl

end Piece

/-- Tokens that are written one after the other are read again as they were, up to the end of
the text, whatever blanks are between them. Behind an operator the blanks may be missing where
it ends before the next token. -/
theorem tokenize_written (lead : List Char) (blank : ∀ c ∈ lead, isBlank c = true)
    (pieces : List Piece) (apart : pieces.IsChain Piece.Apart) :
    tokenize (lead ++ pieces.flatMap Piece.chars) = ⟨pieces.map Piece.token, none⟩ := by
  have few := Piece.length_le_flatMap pieces
  exact Piece.scan_flatMap apart blank (by rw [List.length_append]; omega)

/-- Pieces of every kind: operators that touch each other and a number, a dot that is kept from
one, and a text with both an escaped quote and an escaped backslash. -/
def samplePieces : List Piece :=
  have name : IsName "$x".toList :=
    .cons (.inr (.inr rfl)) (List.forall_mem_singleton.mpr (.inl rfl))
  [⟨.name "$x", .single, [' '], name, List.all_eq_true.mp rfl⟩,
    ⟨.op .bang, .single, [], trivial, nofun⟩,
    ⟨.op .minus, .single, [], trivial, nofun⟩,
    ⟨.number (.int 7), .single, ['\u00a0'], ⟨7, rfl, by decide⟩, List.all_eq_true.mp rfl⟩,
    ⟨.op .dot, .single, ['\t', '\n'], trivial, List.all_eq_true.mp rfl⟩,
    ⟨.number (.int 50), .single, ['\u3000'], ⟨50, rfl, by decide⟩, List.all_eq_true.mp rfl⟩,
    ⟨.op .plus, .single, [], trivial, nofun⟩,
    ⟨.text "it's \\", .single, [' '], trivial, List.all_eq_true.mp rfl⟩,
    ⟨.closing .round, .single, [], trivial, nofun⟩]

/-- They are read again. -/
theorem tokenize_samplePieces :
    tokenize " $x !-7\u00a0.\t\n50\u3000+'it\\'s \\\\' )".toList =
      ⟨[.name "$x", .op .bang, .op .minus, .number (.int 7), .op .dot, .number (.int 50),
        .op .plus, .text "it's \\", .closing .round], none⟩ := by
  have apart : samplePieces.IsChain Piece.Apart :=
    .cons_cons (.inl nofun) <| .cons_cons (.inr ⟨_, rfl, by decide, nofun⟩) <|
    .cons_cons (.inr ⟨_, rfl, by decide, nofun⟩) <| .cons_cons (.inl nofun) <|
    .cons_cons (.inl nofun) <| .cons_cons (.inl nofun) <|
    .cons_cons (.inr ⟨_, rfl, by decide, nofun⟩) <| .cons_cons (.inl nofun) <| .singleton _
  have spelled : [' '] ++ samplePieces.flatMap Piece.chars =
      " $x !-7\u00a0.\t\n50\u3000+'it\\'s \\\\' )".toList := by decide +kernel
  have read := tokenize_written [' '] (List.all_eq_true.mp rfl) samplePieces apart
  rw [spelled] at read
  exact read

end DerivedTags.Snippet
