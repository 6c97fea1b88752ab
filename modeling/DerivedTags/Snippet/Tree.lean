import DerivedTags.Json.Depth
import DerivedTags.Snippet.Lexer

/-!
# From tokens to the operator tree

The tree of a snippet is a JSON value: an array with the operator's name and
its operands, a scalar, or `["var", …]` with the names of a member path. The
levels of the tree and the nesting of the reader itself are both limited by
`depthLimit`; the second because brackets nest without adding a level.
-/

namespace DerivedTags.Snippet

/-- A subtree with its depth, counted like `Json.depth`. -/
structure Node where
  /-- The subtree. -/
  tree : Json
  /-- Its levels of operators. -/
  depth : Nat

/-- A scalar. -/
def Node.leaf (v : Json) : Node := ⟨v, 0⟩

/-- An array of scalars, such as a member path. -/
def Node.ofScalars (items : List Json) : Node := ⟨.arr items, 1⟩

/-- The operands' depth: that of the deepest. -/
def deepest (operands : List Node) : Nat := operands.foldr (fun n d => max n.depth d) 0

/-- An operator over its operands, if the tree stays within the limit. -/
def Node.operator (name : String) (operands : List Node) : Except ReadError Node :=
  let depth := 1 + deepest operands
  if depthLimit < depth then .error .tooDeep
  else .ok ⟨.arr (.str name :: operands.map Node.tree), depth⟩

/-- The name of a member whose key is known while reading: a text or an
integer that is not negative. -/
def staticKey? : Json → Option String
  | .str s => some s
  | .num n => n.index?.map fun _ => String.ofList (Json.renderNumber n)
  | _ => none

/-- A member of an expression. A member path grows by a known key; every
other member is looked up. -/
def Node.member (base key : Node) : Except ReadError Node :=
  match base.tree, staticKey? key.tree with
  | .arr (.str "var" :: path), some segment =>
    .ok (.ofScalars (.str "var" :: path ++ [.str segment]))
  | _, _ => Node.operator "get" [base, key]

/-- A call. Member paths are called by path, looked-up members with a text
key as methods of what they are looked up on. -/
def Node.call (callee : Node) (args : List Node) : Except ReadError Node :=
  match callee.tree with
  | .arr (.str "var" :: path) => Node.operator "call" (.ofScalars path :: args)
  | .arr [.str "get", receiver, .str name] =>
    Node.operator "method" (⟨receiver, callee.depth - 1⟩ :: .leaf (.str name) :: args)
  | _ => .error .notCallable

/-- What a name stands for on its own. -/
def Node.ofName (name : String) : Node :=
  if name == "true" then .leaf (.bool true)
  else if name == "false" then .leaf (.bool false)
  else if name == "null" then .leaf .null
  else if name == "undefined" then .ofScalars [.str "undefined"]
  else .ofScalars [.str "var", .str name]

/-- The error for a token that cannot stand where it does. -/
def unexpected (t : Token) : ReadError := .unexpectedToken t.display

/-- The operator of a sign or negation in front of its operand. -/
def signed (o : Operator) (operand : Node) : Except ReadError Node :=
  match o with
  | .bang => Node.operator "!" [operand]
  | .minus => Node.operator "neg" [operand]
  | _ => Node.operator "call" [.ofScalars [.str "Number"], operand]

/-- A sign or negation at the start, and what follows it. -/
def sign? : List Token → Option (Operator × List Token)
  | .op .bang :: rest => some (.bang, rest)
  | .op .minus :: rest => some (.minus, rest)
  | .op .plus :: rest => some (.plus, rest)
  | _ => none

variable (fault : Option ReadError)

/-- The error where a token is missing: the fault that ended the tokens, if
there was one. -/
def missing {α : Type} (e : ReadError) : Except ReadError α := .error (fault.getD e)

/-- Look at the next token without taking it. -/
def peek : List Token → Except ReadError (Option Token)
  | t :: _ => .ok (some t)
  | [] =>
    match fault with
    | some e => .error e
    | none => .ok none

/-- Take a closing bracket. -/
def expectClosing (b : Bracket) : List Token → Except ReadError (List Token)
  | .closing c :: rest => if c = b then .ok rest else .error (unexpected (.closing c))
  | t :: _ => .error (unexpected t)
  | [] => missing fault .unexpectedEnd

/-- Take the colon of a choice. -/
def expectColon : List Token → Except ReadError (List Token)
  | .op .colon :: rest => .ok rest
  | t :: _ => .error (unexpected t)
  | [] => missing fault .unexpectedEnd

/-- Expressions with commas between them, up to the closing bracket. The
bound counts expressions. -/
def items (inner : List Token → Except ReadError (Node × List Token)) (close : Bracket) :
    Nat → List Token → Except ReadError (List Node × List Token)
  | 0, _ => missing fault .unexpectedEnd
  | bound + 1, ts => do
    let (node, after) ← inner ts
    match after with
    | .op .comma :: rest => do
      let (nodes, last) ← items inner close bound rest
      .ok (node :: nodes, last)
    | .closing b :: rest =>
      if b = close then .ok ([node], rest) else .error (unexpected (.closing b))
    | t :: _ => .error (unexpected t)
    | [] => missing fault .unbalanced

/-- The items or arguments between brackets, after the opening one. -/
def list (inner : List Token → Except ReadError (Node × List Token)) (close : Bracket)
    (ts : List Token) : Except ReadError (List Node × List Token) := do
  match ← peek fault ts with
  | some (.closing b) =>
    if b = close then .ok ([], ts.tail) else items fault inner close (ts.length + 1) ts
  | _ => items fault inner close (ts.length + 1) ts

/-- A number, a text, a name, a list or an expression in brackets. -/
def primary (inner : List Token → Except ReadError (Node × List Token)) :
    List Token → Except ReadError (Node × List Token)
  | [] => missing fault .unexpectedEnd
  | .number n :: rest => .ok (.leaf (.num n), rest)
  | .text s :: rest => .ok (.leaf (.str s), rest)
  | .name s :: rest => .ok (.ofName s, rest)
  | .opening .round :: rest => do
    let (node, after) ← inner rest
    match after with
    | .closing .round :: last => .ok (node, last)
    | t :: _ => .error (unexpected t)
    | [] => missing fault .unbalanced
  | .opening .square :: rest => do
    let (nodes, after) ← list fault inner .square rest
    let node ← Node.operator "list" nodes
    .ok (node, after)
  | .closing _ :: _ => .error .unbalanced
  | .op o :: _ => .error (unexpected (.op o))

/-- Members and calls behind an expression, as many as there are. The bound
counts them. -/
def suffixes (inner : List Token → Except ReadError (Node × List Token)) :
    Nat → Node → List Token → Except ReadError (Node × List Token)
  | bound + 1, base, .op .dot :: rest =>
    match rest with
    | .name s :: after => do
      let node ← base.member (.leaf (.str s))
      suffixes inner bound node after
    | t :: _ => .error (unexpected t)
    | [] => missing fault .unexpectedEnd
  | bound + 1, base, .opening .square :: rest => do
    let (key, after) ← inner rest
    let last ← expectClosing fault .square after
    let node ← base.member key
    suffixes inner bound node last
  | bound + 1, base, .opening .round :: rest => do
    let (args, after) ← list fault inner .round rest
    let node ← base.call args
    suffixes inner bound node after
  | _, base, ts => do
    let _ ← peek fault ts
    .ok (base, ts)

/-- A primary expression with its members and calls. -/
def suffixed (inner : List Token → Except ReadError (Node × List Token)) (ts : List Token) :
    Except ReadError (Node × List Token) := do
  let (base, after) ← primary fault inner ts
  suffixes fault inner after.length base after

/-- Operators of at least a given strength behind a left operand, and their
right operands. Operators of one strength group to the left. The bound
counts operators. -/
def climb (operand : List Token → Except ReadError (Node × List Token)) :
    Nat → Nat → Node → List Token → Except ReadError (Node × List Token)
  | bound + 1, least, left, .op o :: rest =>
    match o.precedence? with
    | none => .ok (left, .op o :: rest)
    | some strength =>
      if strength < least then .ok (left, .op o :: rest)
      else do
        let (first, after) ← operand rest
        let (right, last) ← climb operand bound (strength + 1) first after
        let node ← Node.operator o.text [left, right]
        climb operand bound least node last
  | _, _, left, ts => do
    let _ ← peek fault ts
    .ok (left, ts)

/-- Operands with operators between them. -/
def binary (operand : List Token → Except ReadError (Node × List Token)) (ts : List Token) :
    Except ReadError (Node × List Token) := do
  let (left, after) ← operand ts
  climb fault operand after.length 1 left after

/-- An expression, a choice between two if a question mark follows. -/
def conditional (operand inner : List Token → Except ReadError (Node × List Token))
    (ts : List Token) : Except ReadError (Node × List Token) := do
  let (condition, after) ← binary fault operand ts
  match after with
  | .op .question :: rest => do
    let (yes, afterYes) ← inner rest
    let rest ← expectColon fault afterYes
    let (no, last) ← inner rest
    let node ← Node.operator "if" [condition, yes, no]
    .ok (node, last)
  | _ => .ok (condition, after)

/-- An operand with the signs in front of it: `below` reads what stands behind
a sign, `inner` what stands in brackets. -/
def prefixed (below inner : List Token → Except ReadError (Node × List Token))
    (ts : List Token) : Except ReadError (Node × List Token) :=
  match sign? ts with
  | some (o, rest) => do
    let (operand, after) ← below rest
    let node ← signed o operand
    .ok (node, after)
  | none => suffixed fault inner ts

/-- The reader where no nesting is left. -/
def tooDeep (_ : List Token) : Except ReadError (Node × List Token) := .error .tooDeep

mutual

/-- A whole expression, with room for so many more levels of nesting. -/
def ternary : Nat → List Token → Except ReadError (Node × List Token)
  | 0 => tooDeep
  | room + 1 => conditional fault (unary room) (ternary room)

/-- An operand with its signs. Each sign takes one level of nesting. -/
def unary : Nat → List Token → Except ReadError (Node × List Token)
  | 0 => prefixed fault tooDeep tooDeep
  | room + 1 => prefixed fault (unary room) (conditional fault (unary room) (ternary room))

end

/-- What stands in the brackets of an operand is a whole expression. -/
theorem unary_succ (room : Nat) :
    unary fault (room + 1) = prefixed fault (unary fault room) (ternary fault (room + 1)) := by
  rw [unary, ternary]

omit fault

/-- The tree of a whole sequence of tokens. -/
def treeOf (source : Tokens) : Except ReadError Json := do
  let (node, rest) ← ternary source.fault depthLimit source.tokens
  match rest with
  | [] => do
    let _ ← peek source.fault []
    .ok node.tree
  | .closing _ :: _ => .error .unbalanced
  | t :: _ => .error (unexpected t)

/-- The operator tree of a snippet. -/
def read (source : String) : Except ReadError Json := treeOf (tokenize source.toList)

end DerivedTags.Snippet
