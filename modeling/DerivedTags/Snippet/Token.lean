import DerivedTags.Json.Printer
import DerivedTags.Text.Quoted

/-!
# Tokens of snippets

A snippet is a sequence of brackets, numbers, texts, names and operators.
-/

namespace DerivedTags.Snippet

/-- The two kinds of brackets. -/
inductive Bracket where
  /-- Around an expression or the arguments of a call. -/
  | round
  /-- Around a computed member or the items of a list. -/
  | square
  deriving DecidableEq, Repr

/-- The operators, the separators among them. -/
inductive Operator where
  /-- Strict equality `===`. -/
  | identical
  /-- Strict inequality `!==`. -/
  | distinct
  /-- Loose equality `==`. -/
  | equal
  /-- Loose inequality `!=`. -/
  | unequal
  /-- At most `<=`. -/
  | le
  /-- At least `>=`. -/
  | ge
  /-- Conjunction `&&`. -/
  | and
  /-- Disjunction `||`. -/
  | or
  /-- Default for a missing value `??`. -/
  | coalesce
  /-- Less `<`. -/
  | lt
  /-- Greater `>`. -/
  | gt
  /-- Sum or sign `+`. -/
  | plus
  /-- Difference or sign `-`. -/
  | minus
  /-- Product `*`. -/
  | times
  /-- Quotient `/`. -/
  | slash
  /-- Remainder `%`. -/
  | percent
  /-- Negation `!`. -/
  | bang
  /-- The question mark of a choice. -/
  | question
  /-- The colon of a choice. -/
  | colon
  /-- The comma between arguments. -/
  | comma
  /-- The dot before a member name. -/
  | dot
  deriving DecidableEq, Repr

namespace Operator

/-- All operators, longer ones first. -/
def all : List Operator :=
  [identical, distinct, equal, unequal, le, ge, and, or, coalesce, lt, gt, plus, minus,
    times, slash, percent, bang, question, colon, comma, dot]

/-- The characters of an operator. -/
def chars : Operator → List Char
  | identical => ['=', '=', '=']
  | distinct => ['!', '=', '=']
  | equal => ['=', '=']
  | unequal => ['!', '=']
  | le => ['<', '=']
  | ge => ['>', '=']
  | and => ['&', '&']
  | or => ['|', '|']
  | coalesce => ['?', '?']
  | lt => ['<']
  | gt => ['>']
  | plus => ['+']
  | minus => ['-']
  | times => ['*']
  | slash => ['/']
  | percent => ['%']
  | bang => ['!']
  | question => ['?']
  | colon => [':']
  | comma => [',']
  | dot => ['.']

/-- The operator as text. -/
def text (o : Operator) : String := String.ofList o.chars

/-- Every operator is listed. -/
theorem mem_all (o : Operator) : o ∈ all := by cases o <;> decide

/-- Different operators have different texts. -/
theorem chars_injective {a b : Operator} (h : a.chars = b.chars) : a = b := by
  cases a <;> cases b <;> first | rfl | simp [chars] at h

/-- The binding strength of an operator between two operands. -/
def precedence? : Operator → Option Nat
  | coalesce | or => some 1
  | and => some 2
  | equal | unequal | identical | distinct => some 3
  | lt | le | gt | ge => some 4
  | plus | minus => some 5
  | times | slash | percent => some 6
  | _ => none

end Operator

/-- A token. -/
inductive Token where
  /-- An opening bracket. -/
  | opening (b : Bracket)
  /-- A closing bracket. -/
  | closing (b : Bracket)
  /-- A number. -/
  | number (n : JsonNumber)
  /-- A text in quotes, escapes resolved. -/
  | text (s : String)
  /-- A name. -/
  | name (s : String)
  /-- An operator. -/
  | op (o : Operator)

/-- How a token is shown in a message. -/
def Token.display : Token → String
  | .opening .round => "("
  | .closing .round => ")"
  | .opening .square => "["
  | .closing .square => "]"
  | .number n => String.ofList (Json.renderNumber n)
  | .text s => Text.quoted s
  | .name s => s
  | .op o => o.text

/-- The deepest nesting of operators that a snippet may have. -/
def depthLimit : Nat := 64

/-- Why a snippet cannot be read. -/
inductive ReadError where
  /-- No token begins with this character. -/
  | unexpectedChar (c : Char)
  /-- A text has no closing quote. -/
  | unterminatedText
  /-- A bracket is missing or has no partner. -/
  | unbalanced
  /-- Characters of a number that do not form one, or one that is not finite. -/
  | invalidNumber (text : String)
  /-- A token that cannot stand here, as it is shown. -/
  | unexpectedToken (shown : String)
  /-- The snippet ends too early. -/
  | unexpectedEnd
  /-- Arguments behind something that is neither a name nor a member. -/
  | notCallable
  /-- Operators or brackets nest too deep. -/
  | tooDeep
  deriving DecidableEq, Repr

/-- The message of a reading error. -/
def ReadError.message : ReadError → String
  | .unexpectedChar c => "unexpected character '" ++ c.toString ++ "'"
  | .unterminatedText => "unterminated string literal"
  | .unbalanced => "unbalanced parenthesis or bracket"
  | .invalidNumber text => "invalid number '" ++ text ++ "'"
  | .unexpectedToken shown => "unexpected token '" ++ shown ++ "'"
  | .unexpectedEnd => "unexpected end of snippet"
  | .notCallable => "expression is not callable"
  | .tooDeep => "expression nests deeper than " ++ depthLimit.repr ++ " levels"

end DerivedTags.Snippet
