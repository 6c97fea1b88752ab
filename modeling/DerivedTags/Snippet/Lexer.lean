import DerivedTags.Decimal.Numeral
import DerivedTags.Snippet.Token
import DerivedTags.Text.Blank

/-!
# From text to tokens

Blanks separate tokens and are otherwise skipped. A text is read up to its
closing quote, a number and a name as far as they reach, and of the
operators the longest one that fits.
-/

namespace DerivedTags.Snippet

/-- The character an escape stands for. -/
def unescape (c : Char) : Char :=
  if c == 'n' then '\n' else if c == 't' then '\t' else if c == 'r' then '\r' else c

/-- The characters of a text up to its closing quote, and what follows it. -/
def textBody (quote : Char) : List Char → Option (List Char × List Char)
  | [] => none
  | ['\\'] => none
  | '\\' :: e :: rest =>
    (textBody quote rest).map fun (body, after) => (unescape e :: body, after)
  | c :: rest =>
    if c == quote then some ([], rest)
    else (textBody quote rest).map fun (body, after) => (c :: body, after)

/-- The characters of a number after its first one. -/
structure NumberTail where
  /-- The characters that belong to the number. -/
  chars : List Char
  /-- Whether a point or an exponent mark was seen. -/
  isFloat : Bool
  /-- What follows the number. -/
  rest : List Char

/-- The tail with characters in front. -/
def NumberTail.cons (front : List Char) (tail : NumberTail) : NumberTail :=
  ⟨front ++ tail.chars, tail.isFloat, tail.rest⟩

/-- Scan a number: digits, one point unless there was a point or a mark, and
exponent marks, each with an optional sign. -/
def numberTail : Bool → List Char → NumberTail
  | isFloat, [] => ⟨[], isFloat, []⟩
  | isFloat, c :: rest =>
    if c.isDigit then (numberTail isFloat rest).cons [c]
    else if c == '.' && !isFloat then (numberTail true rest).cons [c]
    else if c == 'e' || c == 'E' then
      match rest with
      | sign :: after =>
        if sign == '+' || sign == '-' then (numberTail true after).cons [c, sign]
        else (numberTail true (sign :: after)).cons [c]
      | [] => ⟨[c], true, []⟩
    else ⟨[], isFloat, c :: rest⟩

/-- The number that the scanned characters denote. Digits alone are an
integer if it fits, otherwise the nearest finite double. -/
def numberOf (chars : List Char) (isFloat : Bool) : Option JsonNumber :=
  match if isFloat then none else Decimal.int64? chars with
  | some n => some (.int n)
  | none =>
    match Decimal.double? chars with
    | some x => if x.isFinite then some (.float x) else none
    | none => none

/-- A character that a name can begin with. -/
def isNameStart (c : Char) : Bool := Text.isLetter c || c == '_' || c == '$'

/-- A character that a name can go on with. -/
def isNamePart (c : Char) : Bool := Text.isLetter c || Text.isNumeral c || c == '_' || c == '$'

/-- The longest operator at the start of a text, and what follows it. -/
def operatorAt (cs : List Char) : Option (Operator × List Char) :=
  (Operator.all.find? fun o => o.chars.isPrefixOf cs).map fun o => (o, cs.drop o.chars.length)

/-- Whether a digit comes next. -/
def digitFollows : List Char → Bool
  | c :: _ => c.isDigit
  | [] => false

/-- The token that begins with a character that is not blank, and what
follows it. -/
def tokenAt (c : Char) (rest : List Char) : Except ReadError (Token × List Char) :=
  if c == '(' then .ok (.opening .round, rest)
  else if c == ')' then .ok (.closing .round, rest)
  else if c == '[' then .ok (.opening .square, rest)
  else if c == ']' then .ok (.closing .square, rest)
  else if c == '\'' || c == '"' then
    match textBody c rest with
    | some (body, after) => .ok (.text (String.ofList body), after)
    | none => .error .unterminatedText
  else if c.isDigit || (c == '.' && digitFollows rest) then
    let tail := (numberTail (c == '.') rest).cons [c]
    match numberOf tail.chars tail.isFloat with
    | some n => .ok (.number n, tail.rest)
    | none => .error (.invalidNumber (String.ofList tail.chars))
  else if isNameStart c then
    .ok (.name (String.ofList (c :: rest.takeWhile isNamePart)), rest.dropWhile isNamePart)
  else
    match operatorAt (c :: rest) with
    | some (o, after) => .ok (.op o, after)
    | none => .error (.unexpectedChar c)

/-- The tokens of a text, up to the first place where there is none. -/
structure Tokens where
  /-- The tokens in order. -/
  tokens : List Token
  /-- Why the text is not tokens to its end, if it is not. -/
  fault : Option ReadError

/-- The tokens of a text; the bound counts tokens. -/
def scan : Nat → List Char → Tokens
  | 0, _ => ⟨[], none⟩
  | bound + 1, cs =>
    match Text.trimStart cs with
    | [] => ⟨[], none⟩
    | c :: rest =>
      match tokenAt c rest with
      | .error e => ⟨[], some e⟩
      | .ok (token, after) =>
        let more := scan bound after
        ⟨token :: more.tokens, more.fault⟩

/-- The tokens of a text. There are at most as many as characters. -/
def tokenize (cs : List Char) : Tokens := scan (cs.length + 1) cs

end DerivedTags.Snippet
