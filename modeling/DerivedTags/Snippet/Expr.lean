import DerivedTags.Snippet.Value

/-!
# Typed expressions

An operator tree becomes an expression with one case for each kind of
operator. Missing operands are `undefined`, surplus ones are left out, and an
operator that is not known is a call of the function with its name.
-/

namespace DerivedTags.Snippet

/-- Operators that evaluate both operands and combine the values. -/
inductive BinaryOp where
  /-- Difference. -/
  | sub
  /-- Quotient. -/
  | div
  /-- Remainder. -/
  | mod
  /-- Loose equality. -/
  | eq
  /-- Loose inequality. -/
  | ne
  /-- Strict equality. -/
  | identical
  /-- Strict inequality. -/
  | distinct
  /-- Greater. -/
  | gt
  /-- Less. -/
  | lt
  /-- Greater or equal. -/
  | ge
  /-- Less or equal. -/
  | le
  deriving DecidableEq, Repr

/-- A member path: the name of a binding and the names of members. -/
abbrev Path := List String

/-- A typed expression. -/
inductive Expr where
  /-- A value. -/
  | literal (v : Value)
  /-- A list of the values of expressions. -/
  | list (items : List Expr)
  /-- A member path, resolved by the scope. -/
  | var (path : Path)
  /-- A member with a computed key. -/
  | get (base key : Expr)
  /-- Sum or concatenation, from the left. -/
  | add (args : List Expr)
  /-- Product, from the left. -/
  | mul (args : List Expr)
  /-- An operator that always evaluates both operands. -/
  | binary (op : BinaryOp) (left right : Expr)
  /-- The negative of a number. -/
  | neg (arg : Expr)
  /-- The opposite truth value. -/
  | not (arg : Expr)
  /-- The first value that does not count as true, or the last value. -/
  | and (args : List Expr)
  /-- The first value that counts as true, or the last value. -/
  | or (args : List Expr)
  /-- The left value unless it is missing, else the right one. -/
  | coalesce (left right : Expr)
  /-- A value under a condition, else `undefined`. -/
  | onlyIf (condition yes : Expr)
  /-- One of two values, by a condition. -/
  | ifElse (condition yes no : Expr)
  /-- A call by path. -/
  | call (path : Path) (args : List Expr)
  /-- A method of a value. -/
  | method (receiver : Expr) (name : String) (args : List Expr)

namespace Expr

/-- A segment of a path: a text as it is, anything else by its JSON text. -/
def segment : Json → String
  | .str s => s
  | v => v.text

/-- The path that the first operand of a call gives. -/
def calledPath : List Json → Path
  | .arr parts :: _ => parts.map segment
  | .str s :: _ => [s]
  | _ => []

/-- The name that the second operand of a method gives. -/
def methodName : List Json → String
  | _ :: .str s :: _ => s
  | _ => ""

/-- The operand at a position, `undefined` if there is none. -/
def operand (args : List Expr) (i : Nat) : Expr := args.getD i (.literal .undefined)

/-- An operator over its operands, given as they stand in the tree and as
expressions. -/
def ofOperator (op : String) (raw : List Json) (args : List Expr) : Expr :=
  let both (o : BinaryOp) : Expr := .binary o (operand args 0) (operand args 1)
  match op with
  | "var" => .var (raw.map segment)
  | "get" => .get (operand args 0) (operand args 1)
  | "undefined" => .literal .undefined
  | "list" => .list args
  | "+" => .add args
  | "-" => both .sub
  | "*" => .mul args
  | "/" => both .div
  | "%" => both .mod
  | "neg" => .neg (operand args 0)
  | "==" => both .eq
  | "!=" => both .ne
  | "===" => both .identical
  | "!==" => both .distinct
  | ">" => both .gt
  | "<" => both .lt
  | ">=" => both .ge
  | "<=" => both .le
  | "&&" => .and args
  | "||" => .or args
  | "??" => .coalesce (operand args 0) (operand args 1)
  | "!" => .not (operand args 0)
  | "if" =>
    match args with
    | condition :: yes :: no :: _ => .ifElse condition yes no
    | _ => .onlyIf (operand args 0) (operand args 1)
  | "call" => .call (calledPath raw) (args.drop 1)
  | "method" => .method (operand args 0) (methodName raw) (args.drop 2)
  | name => .call [name] args

mutual

/-- The expression of an operator tree. Whatever does not begin with an
operator's name is a literal. -/
def ofTree : Json → Expr
  | .arr (.str op :: raw) => ofOperator op raw (ofTrees raw)
  | .null => .literal (.ofJson .null)
  | .bool b => .literal (.ofJson (.bool b))
  | .num n => .literal (.ofJson (.num n))
  | .str s => .literal (.ofJson (.str s))
  | .arr items => .literal (.ofJson (.arr items))
  | .obj members => .literal (.ofJson (.obj members))

/-- The expressions of several operator trees. -/
def ofTrees : List Json → List Expr
  | [] => []
  | tree :: rest => ofTree tree :: ofTrees rest

end

/-- The expressions of several trees, one by one. -/
theorem ofTrees_eq_map (trees : List Json) : ofTrees trees = trees.map ofTree := by
  induction trees with
  | nil => rfl
  | cons tree rest ih => rw [ofTrees, ih, List.map_cons]

end Expr

end DerivedTags.Snippet
