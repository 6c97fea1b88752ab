import DerivedTags.Snippet.Tree

/-!
# The grammar of snippets

Which sequences of tokens are expressions, and which tree each of them has. A
derivation counts its frames: the whole expressions and signs that stand one
inside the other on the way from its root to a leaf.

  whole    := level 0 | level 0 ? whole : whole
  level i  := level (i + 1) | level i o level (i + 1)   for operators o of level i
  level 6  := operand
  operand  := sign operand | suffixed
  suffixed := primary | suffixed . name | suffixed [ whole ] | suffixed ( items )
  primary  := number | text | name | ( whole ) | [ items ]
  items    := nothing | whole | whole , items           nothing behind a comma
-/

namespace DerivedTags.Snippet

/-- The operators of a level between two operands, the weakest at level zero. -/
def operatorsAt : Nat → List Operator
  | 0 => [.coalesce, .or]
  | 1 => [.and]
  | 2 => [.equal, .unequal, .identical, .distinct]
  | 3 => [.lt, .le, .gt, .ge]
  | 4 => [.plus, .minus]
  | 5 => [.times, .slash, .percent]
  | _ => []

/-- The tree of a name. -/
def nameTree (s : String) : Json :=
  if s = "true" then .bool true
  else if s = "false" then .bool false
  else if s = "null" then .null
  else if s = "undefined" then .arr [.str "undefined"]
  else .arr [.str "var", .str s]

/-- The tree of a member: a path grows by a known key, every other member is
looked up. -/
def memberTree (base key : Json) : Json :=
  match base, staticKey? key with
  | .arr (.str "var" :: path), some segment => .arr (.str "var" :: (path ++ [.str segment]))
  | _, _ => .arr [.str "get", base, key]

/-- The tree of a call. Only paths and members looked up under a text are
called. -/
def callTree? (callee : Json) (args : List Json) : Option Json :=
  match callee with
  | .arr (.str "var" :: path) => some (.arr (.str "call" :: .arr path :: args))
  | .arr [.str "get", receiver, .str name] =>
    some (.arr (.str "method" :: receiver :: .str name :: args))
  | _ => none

/-- The tree of a sign in front of an operand. A plus is a call of `Number`. -/
def signTree? (sign : Operator) (operand : Json) : Option Json :=
  match sign with
  | .bang => some (.arr [.str "!", operand])
  | .minus => some (.arr [.str "neg", operand])
  | .plus => some (.arr [.str "call", .arr [.str "Number"], operand])
  | _ => none

/-- What a sequence of tokens can be. -/
inductive Phrase where
  /-- An expression. -/
  | whole
  /-- An expression of operators of a level and stronger ones. -/
  | level (i : Nat)
  /-- An operand with its signs. -/
  | operand
  /-- A primary expression with members and calls behind it. -/
  | suffixed
  /-- A primary expression. -/
  | primary
  /-- Expressions with commas between them. -/
  | items

/-- A sequence of tokens is a phrase with a tree, derived with so many frames on
the longest way from the root to a leaf. The tree of items is the array of their
trees. -/
inductive Derives : Phrase → Nat → List Token → Json → Prop where
  /-- An expression without choice. -/
  | plain {n : Nat} {ts : List Token} {t : Json} (expression : Derives (.level 0) n ts t) :
    Derives .whole (n + 1) ts t
  /-- A choice between two expressions. -/
  | choice {a b d : Nat} {cs ys ns : List Token} {c y m : Json}
    (condition : Derives (.level 0) a cs c) (yes : Derives .whole b ys y)
    (no : Derives .whole d ns m) :
    Derives .whole (max a (max b d) + 1)
      (cs ++ .op .question :: (ys ++ .op .colon :: ns)) (.arr [.str "if", c, y, m])
  /-- An operand alone. -/
  | operand {n : Nat} {ts : List Token} {t : Json} (operand : Derives .operand n ts t) :
    Derives (.level 6) n ts t
  /-- An expression of stronger operators only. -/
  | stronger {i n : Nat} {ts : List Token} {t : Json} (inner : Derives (.level (i + 1)) n ts t) :
    Derives (.level i) n ts t
  /-- Two sides of an operator, which groups to the left. -/
  | joined {i a b : Nat} {ls rs : List Token} {l r : Json} {o : Operator}
    (known : o ∈ operatorsAt i) (left : Derives (.level i) a ls l)
    (right : Derives (.level (i + 1)) b rs r) :
    Derives (.level i) (max a b) (ls ++ .op o :: rs) (.arr [.str o.text, l, r])
  /-- A sign in front of an operand. -/
  | sign {n : Nat} {ts : List Token} {t signedTree : Json} {o : Operator}
    (known : signTree? o t = some signedTree) (operand : Derives .operand n ts t) :
    Derives .operand (n + 1) (.op o :: ts) signedTree
  /-- An operand without sign. -/
  | suffixed {n : Nat} {ts : List Token} {t : Json} (bare : Derives .suffixed n ts t) :
    Derives .operand n ts t
  /-- A primary expression alone. -/
  | primary {n : Nat} {ts : List Token} {t : Json} (base : Derives .primary n ts t) :
    Derives .suffixed n ts t
  /-- A member under a name. -/
  | member {n : Nat} {ts : List Token} {t : Json} {s : String}
    (base : Derives .suffixed n ts t) :
    Derives .suffixed n (ts ++ [.op .dot, .name s]) (memberTree t (.str s))
  /-- A member under a computed key. -/
  | computed {a b : Nat} {ts ks : List Token} {t key : Json}
    (base : Derives .suffixed a ts t) (inner : Derives .whole b ks key) :
    Derives .suffixed (max a b) (ts ++ .opening .square :: (ks ++ [.closing .square]))
      (memberTree t key)
  /-- A call. -/
  | call {a b : Nat} {fs as : List Token} {callee called : Json} {args : List Json}
    (base : Derives .suffixed a fs callee) (arguments : Derives .items b as (.arr args))
    (known : callTree? callee args = some called) :
    Derives .suffixed (max a b) (fs ++ .opening .round :: (as ++ [.closing .round])) called
  /-- A number. -/
  | number (n : JsonNumber) : Derives .primary 0 [.number n] (.num n)
  /-- A text. -/
  | text (s : String) : Derives .primary 0 [.text s] (.str s)
  /-- A name. -/
  | name (s : String) : Derives .primary 0 [.name s] (nameTree s)
  /-- An expression in brackets. -/
  | grouped {n : Nat} {ts : List Token} {t : Json} (inner : Derives .whole n ts t) :
    Derives .primary n (.opening .round :: (ts ++ [.closing .round])) t
  /-- A list. -/
  | list {n : Nat} {ts : List Token} {trees : List Json}
    (inner : Derives .items n ts (.arr trees)) :
    Derives .primary n (.opening .square :: (ts ++ [.closing .square]))
      (.arr (.str "list" :: trees))
  /-- No items. -/
  | none : Derives .items 0 [] (.arr [])
  /-- One item. -/
  | one {n : Nat} {ts : List Token} {t : Json} (item : Derives .whole n ts t) :
    Derives .items n ts (.arr [t])
  /-- An item, a comma and at least one more item. -/
  | more {a b : Nat} {ts us : List Token} {t u : Json} {trees : List Json}
    (item : Derives .whole a ts t) (others : Derives .items b us (.arr (u :: trees))) :
    Derives .items (max a b) (ts ++ .op .comma :: us) (.arr (t :: u :: trees))

/-- A property of trees that is kept wherever the grammar puts a tree together. -/
structure KeptByGrammar (holds : Json → Prop) : Prop where
  /-- It holds of numbers. -/
  number (n : JsonNumber) : holds (.num n)
  /-- It holds of texts. -/
  text (s : String) : holds (.str s)
  /-- It holds of names. -/
  name (s : String) : holds (nameTree s)
  /-- A choice keeps it. -/
  choice {condition yes no : Json} (first : holds condition) (second : holds yes)
    (third : holds no) : holds (.arr [.str "if", condition, yes, no])
  /-- An operator between two operands keeps it. -/
  joined {i : Nat} {o : Operator} {l r : Json} (known : o ∈ operatorsAt i) (left : holds l)
    (right : holds r) : holds (.arr [.str o.text, l, r])
  /-- A sign keeps it. -/
  sign {o : Operator} {t signedTree : Json} (known : signTree? o t = some signedTree)
    (operand : holds t) : holds signedTree
  /-- A member keeps it. -/
  member {base key : Json} (ofBase : holds base) (ofKey : holds key) : holds (memberTree base key)
  /-- A call keeps it. -/
  call {callee called : Json} {args : List Json} (known : callTree? callee args = some called)
    (ofCallee : holds callee) (ofArgs : ∀ arg ∈ args, holds arg) : holds called
  /-- A list keeps it. -/
  list {trees : List Json} (each : ∀ t ∈ trees, holds t) : holds (.arr (.str "list" :: trees))

/-- A property holds of the trees of a phrase: of each of its items, or of its one tree. -/
def Phrase.Each (holds : Json → Prop) : Phrase → Json → Prop
  | .items, t => ∀ trees, t = .arr trees → ∀ tree ∈ trees, holds tree
  | _, t => holds t

/-- What the grammar keeps holds of all that it derives. -/
theorem Derives.each {holds : Json → Prop} (kept : KeptByGrammar holds) {p : Phrase} {n : Nat}
    {ts : List Token} {t : Json} (derivation : Derives p n ts t) : p.Each holds t := by
  induction derivation with
  | plain _ ih | operand _ ih | stronger _ ih | suffixed _ ih | primary _ ih | grouped _ ih =>
    exact ih
  | choice _ _ _ condition yes no => exact kept.choice condition yes no
  | joined known _ _ left right => exact kept.joined known left right
  | sign known _ ih => exact kept.sign known ih
  | member _ ih => exact kept.member ih (kept.text _)
  | computed _ _ base inner => exact kept.member base inner
  | call _ _ known base arguments => exact kept.call known base (arguments _ rfl)
  | number n => exact kept.number n
  | text s => exact kept.text s
  | name s => exact kept.name s
  | list _ inner => exact kept.list (inner _ rfl)
  | none =>
    intro trees same
    cases same
    exact List.forall_mem_nil _
  | one _ item =>
    intro trees same
    cases same
    exact List.forall_mem_singleton.mpr item
  | more _ _ item others =>
    intro trees same
    cases same
    exact List.forall_mem_cons.mpr ⟨item, others _ rfl⟩

/-- No operator has a level above the fifth. -/
theorem level_le_five {i : Nat} {o : Operator} (mem : o ∈ operatorsAt i) : i ≤ 5 := by
  match i with
  | 0 | 1 | 2 | 3 | 4 | 5 => omega
  | _ + 6 => cases mem

/-- The binding strength of an operator is one more than its level. -/
theorem precedence?_eq_some_iff (o : Operator) (i : Nat) :
    o.precedence? = some (i + 1) ↔ o ∈ operatorsAt i := by
  match i with
  | 0 | 1 | 2 | 3 | 4 | 5 => cases o <;> decide
  | _ + 6 => cases o <;> simp [Operator.precedence?, operatorsAt]

/-- An operator with a binding strength has a level. -/
theorem exists_level {o : Operator} {strength : Nat} (h : o.precedence? = some strength) :
    ∃ i, strength = i + 1 ∧ o ∈ operatorsAt i := by
  cases strength with
  | zero => cases o <;> cases h
  | succ i => exact ⟨i, rfl, (precedence?_eq_some_iff o i).mp h⟩

end DerivedTags.Snippet
