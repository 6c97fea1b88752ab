import DerivedTags.Snippet.Expr

/-!
# Folding of constants

Sums, products, remainders and negatives of numeric literals are computed
once, from the leaves upward. A sum with a text is a concatenation and stays
as it is. The remainder of the least integer by minus one breaks the
compilation off.
-/

namespace DerivedTags.Snippet.Expr

/-- The integers of a list of integer literals. -/
def ints? : List Expr → Option (List Int64)
  | [] => some []
  | .literal (.int n) :: rest => (ints? rest).map (n :: ·)
  | _ => none

/-- The doubles of a list of numeric literals. -/
def doubles? : List Expr → Option (List Float)
  | [] => some []
  | .literal (.int n) :: rest => (doubles? rest).map (Whole.toFloat n :: ·)
  | .literal (.float x) :: rest => (doubles? rest).map (x :: ·)
  | _ => none

/-- The sum of integers, if every partial sum has 64 bits. -/
def sumInts? (ns : List Int64) : Option Int64 :=
  ns.foldlM Whole.add? 0

/-- The product of integers, if every partial product has 64 bits. -/
def productInts? (ns : List Int64) : Option Int64 :=
  ns.foldlM Whole.mul? 1

/-- A sum, computed if all its operands are numeric literals. -/
def foldAdd (args : List Expr) : Expr :=
  match (ints? args).bind sumInts? with
  | some n => .literal (.int n)
  | none =>
    match doubles? args with
    | some xs => .literal (.float (Decimal.sum xs))
    | none => .add args

/-- A product, computed if all its operands are integer literals and it has
64 bits. -/
def foldMul (args : List Expr) : Expr :=
  match (ints? args).bind productInts? with
  | some n => .literal (.int n)
  | none => .mul args

/-- An operator with two operands; a remainder of integer literals by another
number than zero is computed. -/
def foldBinary (op : BinaryOp) (left right : Expr) : Except Panic Expr :=
  match op, left, right with
  | .mod, .literal (.int a), .literal (.int b) =>
    if b == 0 then .ok (.binary .mod left right)
    else (Whole.remainder a b).map fun n => .literal (.int n)
  | op, left, right => .ok (.binary op left right)

/-- A negative, computed for a numeric literal other than the least integer. -/
def foldNeg (arg : Expr) : Expr :=
  match arg with
  | .literal (.int n) =>
    match Whole.neg? n with
    | some m => .literal (.int m)
    | none => .neg arg
  | .literal (.float x) => .literal (.float (-x))
  | _ => .neg arg

mutual

/-- The expression with its constants computed. -/
def fold : Expr → Except Panic Expr
  | .literal v => .ok (.literal v)
  | .list items => do .ok (.list (← foldAll items))
  | .var path => .ok (.var path)
  | .get base key => do .ok (.get (← fold base) (← fold key))
  | .add args => do .ok (foldAdd (← foldAll args))
  | .mul args => do .ok (foldMul (← foldAll args))
  | .binary op left right => do foldBinary op (← fold left) (← fold right)
  | .neg arg => do .ok (foldNeg (← fold arg))
  | .not arg => do .ok (.not (← fold arg))
  | .and args => do .ok (.and (← foldAll args))
  | .or args => do .ok (.or (← foldAll args))
  | .coalesce left right => do .ok (.coalesce (← fold left) (← fold right))
  | .onlyIf condition yes => do .ok (.onlyIf (← fold condition) (← fold yes))
  | .ifElse condition yes no => do
    .ok (.ifElse (← fold condition) (← fold yes) (← fold no))
  | .call path args => do .ok (.call path (← foldAll args))
  | .method receiver name args => do
    .ok (.method (← fold receiver) name (← foldAll args))

/-- Several expressions with their constants computed. -/
def foldAll : List Expr → Except Panic (List Expr)
  | [] => .ok []
  | e :: rest => do
    let folded ← fold e
    let others ← foldAll rest
    .ok (folded :: others)

end

/-- The expression of an operator tree with its constants computed. -/
def compile (tree : Json) : Except Panic Expr := fold (ofTree tree)

end DerivedTags.Snippet.Expr
