import DerivedTags.Snippet.Eval
import DerivedTags.Snippet.Fold
import DerivedTags.Snippet.Tree

/-!
# Compiling and running snippets

A snippet is compiled once, from text or from an operator tree, and then
evaluated with any function table against any scope. A panic raised below an
evaluation ends as an error of that evaluation.
-/

namespace DerivedTags.Snippet

/-- A compiled snippet. -/
structure Compiled where
  /-- The text it was compiled from; a tree's text is its JSON text. -/
  source : String
  /-- The expression, constants computed. -/
  expr : Expr

/-- Why a snippet is refused. -/
inductive Refusal where
  /-- The text cannot be read. -/
  | read (source : String) (cause : ReadError)
  /-- The operator tree nests too deep. -/
  | tooDeep
  deriving DecidableEq, Repr

/-- The message of a refusal. -/
def Refusal.message : Refusal → String
  | .read source cause => "cannot read snippet `" ++ source ++ "`: " ++ cause.message
  | .tooDeep => "operator tree nests deeper than " ++ depthLimit.repr ++ " levels"

/-- Read and compile a text. The folding of constants may break off. -/
def Compiled.ofText (source : String) : Except Panic (Except Refusal Compiled) :=
  match read source with
  | .error cause => .ok (.error (.read source cause))
  | .ok tree => (Expr.compile tree).map fun expr => .ok ⟨source, expr⟩

/-- Compile an operator tree of limited depth. -/
def Compiled.ofTree (tree : Json) : Except Panic (Except Refusal Compiled) :=
  if tree.deeperThan depthLimit then .ok (.error .tooDeep)
  else (Expr.compile tree).map fun expr => .ok ⟨tree.text, expr⟩

/-- The result of an evaluation with panics contained. -/
def contained : Except Stop Value → Except EvalFailure Value
  | .ok v => .ok v
  | .error (.error e) => .error e
  | .error (.panic p) => .error (.panicked p)

/-- Evaluate a compiled snippet with a function table against a scope. -/
def Compiled.evaluate {m : Type → Type} [Monad m] (snippet : Compiled) (functions : FunctionTable)
    (scope : Scope m) : m (Except EvalFailure Value) := do
  let result ← (snippet.expr.eval scope functions).run
  pure (contained result)

end DerivedTags.Snippet
