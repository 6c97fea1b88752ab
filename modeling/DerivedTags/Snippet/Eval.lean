import DerivedTags.Snippet.FunctionTable
import DerivedTags.Snippet.Scope

/-!
# Evaluation of expressions

An evaluation reads the world through its scope and the function table only
and changes nothing. Operands are evaluated from the left; the logical
operators stop as soon as their value is known.
-/

namespace DerivedTags.Snippet

/-- The sum of integers if it has 64 bits, a concatenation if one side is a
text or a container, else the sum as doubles. -/
def addValues (a b : Value) : Value :=
  match a, b with
  | .int x, .int y =>
    match Whole.add? x y with
    | some n => .int n
    | none => .float (Whole.toFloat x + Whole.toFloat y)
  | a, b =>
    if isTextual a || isTextual b then .ofChars (a.displayChars ++ b.displayChars)
    else .float (a.toNumber + b.toNumber)
where
  /-- Whether a value makes a sum a concatenation. -/
  isTextual : Value → Bool
    | .str _ | .array .. | .object .. => true
    | _ => false

/-- The product of integers if it has 64 bits, else the product as doubles. -/
def mulValues (a b : Value) : Value :=
  match a, b with
  | .int x, .int y =>
    match Whole.mul? x y with
    | some n => .int n
    | none => .float (Whole.toFloat x * Whole.toFloat y)
  | a, b => .float (a.toNumber * b.toNumber)

/-- The difference, of integers if it has 64 bits, else as doubles. -/
def subValues (a b : Value) : Value :=
  match a, b with
  | .int x, .int y =>
    match Whole.sub? x y with
    | some n => .int n
    | none => .float (Whole.toFloat x - Whole.toFloat y)
  | a, b => .float (a.toNumber - b.toNumber)

/-- The quotient; that of integers stays one if it is exact. -/
def divValues (a b : Value) : Except Stop Value :=
  match a, b with
  | .int x, .int y =>
    if Whole.remainder? x y = some 0 then
      match Whole.quotient x y with
      | .ok n => .ok (.int n)
      | .error p => .error (.panic p)
    else .ok (.float (Whole.toFloat x / Whole.toFloat y))
  | a, b => .ok (.float (a.toNumber / b.toNumber))

/-- The remainder; that of integers by another number than zero stays one. -/
def modValues (a b : Value) : Value :=
  match a, b with
  | .int x, .int y =>
    if y == 0 then .float (Decimal.remainder (Whole.toFloat x) (Whole.toFloat y))
    else .int ((Whole.remainder? x y).getD 0)
  | a, b => .float (Decimal.remainder a.toNumber b.toNumber)

/-- The negative, of an integer if it has 64 bits, else as a double. -/
def negValue : Value → Value
  | .int n =>
    match Whole.neg? n with
    | some m => .int m
    | none => .float (-Whole.toFloat n)
  | v => .float (-v.toNumber)

/-- Whether the order of two values satisfies a condition. -/
def orderIs (a b : Value) (condition : Ordering → Bool) : Value :=
  .bool ((a.compare? b).any condition)

/-- An operator on the values of its operands. -/
def BinaryOp.apply (op : BinaryOp) (a b : Value) : Except Stop Value :=
  match op with
  | .sub => .ok (subValues a b)
  | .div => divValues a b
  | .mod => .ok (modValues a b)
  | .eq => .ok (.bool (a.equals b))
  | .ne => .ok (.bool (!a.equals b))
  | .identical => .ok (.bool (a.identical b))
  | .distinct => .ok (.bool (!a.identical b))
  | .gt => .ok (orderIs a b (· == .gt))
  | .lt => .ok (orderIs a b (· == .lt))
  | .ge => .ok (orderIs a b (· != .lt))
  | .le => .ok (orderIs a b (· != .gt))

variable {m : Type → Type} [Monad m]

/-- A result that needs no effects. -/
def settled {α : Type} (result : Except Stop α) : ExceptT Stop m α := ExceptT.mk (pure result)

/-- A call by path: a call of the scope, a function of the table, or a method
of what the path before the last name resolves to. -/
def invoke (scope : Scope m) (functions : FunctionTable) (path : Path) (args : List Value) :
    ExceptT Stop m Value :=
  match scope.call path args with
  | some result => result
  | none =>
    match functions.get? (".".intercalate path) with
    | some f => settled (f args)
    | none =>
      match path.getLast? with
      | none => settled (.error (.error (.notFunction path)))
      | some name =>
        if path.length ≤ 1 then settled (.error (.error (.notDefined name)))
        else do
          let receiver ← scope.resolve path.dropLast
          settled (receiver.method name args)

mutual

/-- The value of an expression. -/
def Expr.eval (scope : Scope m) (functions : FunctionTable) : Expr → ExceptT Stop m Value
  | .literal v => pure v
  | .list items => do
    let values ← evalAll scope functions items
    pure (.list values)
  | .var path => scope.resolve path
  | .get base key => do
    let name ← key.eval scope functions
    match base with
    | .var path => scope.resolve (path ++ [name.display])
    | base => do
      let v ← base.eval scope functions
      settled (v.member name.display)
  | .add [] => pure (.int 0)
  | .add (first :: rest) => do
    let v ← first.eval scope functions
    evalSum scope functions v rest
  | .mul [] => pure (.int 1)
  | .mul (first :: rest) => do
    let v ← first.eval scope functions
    evalProduct scope functions v rest
  | .binary op left right => do
    let a ← left.eval scope functions
    let b ← right.eval scope functions
    settled (op.apply a b)
  | .neg arg => do
    let v ← arg.eval scope functions
    pure (negValue v)
  | .not arg => do
    let v ← arg.eval scope functions
    pure (.bool (!v.countsAsTrue))
  | .and args => evalAnd scope functions (.bool true) args
  | .or args => evalOr scope functions (.bool false) args
  | .coalesce left right => do
    let v ← left.eval scope functions
    if v.isMissing then right.eval scope functions else pure v
  | .onlyIf condition yes => do
    let v ← condition.eval scope functions
    if v.countsAsTrue then yes.eval scope functions else pure .undefined
  | .ifElse condition yes no => do
    let v ← condition.eval scope functions
    if v.countsAsTrue then yes.eval scope functions else no.eval scope functions
  | .call path args => do
    let values ← evalAll scope functions args
    invoke scope functions path values
  | .method receiver name args => do
    let v ← receiver.eval scope functions
    let values ← evalAll scope functions args
    settled (v.method name values)

/-- The values of expressions, from the left. -/
def evalAll (scope : Scope m) (functions : FunctionTable) : List Expr → ExceptT Stop m (List Value)
  | [] => pure []
  | e :: rest => do
    let v ← e.eval scope functions
    let values ← evalAll scope functions rest
    pure (v :: values)

/-- A sum so far with the values of further summands. -/
def evalSum (scope : Scope m) (functions : FunctionTable) :
    Value → List Expr → ExceptT Stop m Value
  | total, [] => pure total
  | total, e :: rest => do
    let v ← e.eval scope functions
    evalSum scope functions (addValues total v) rest

/-- A product so far with the values of further factors. -/
def evalProduct (scope : Scope m) (functions : FunctionTable) :
    Value → List Expr → ExceptT Stop m Value
  | total, [] => pure total
  | total, e :: rest => do
    let v ← e.eval scope functions
    evalProduct scope functions (mulValues total v) rest

/-- The first value that does not count as true, or the last one. -/
def evalAnd (scope : Scope m) (functions : FunctionTable) :
    Value → List Expr → ExceptT Stop m Value
  | last, [] => pure last
  | _, e :: rest => do
    let v ← e.eval scope functions
    if v.countsAsTrue then evalAnd scope functions v rest else pure v

/-- The first value that counts as true, or the last one. -/
def evalOr (scope : Scope m) (functions : FunctionTable) :
    Value → List Expr → ExceptT Stop m Value
  | last, [] => pure last
  | _, e :: rest => do
    let v ← e.eval scope functions
    if v.countsAsTrue then pure v else evalOr scope functions v rest

end

end DerivedTags.Snippet
