import DerivedTags.Proofs.Snippet.Congruence
import DerivedTags.Snippet.Fold

/-!
# What is computed while folding

Folding and evaluating compute alike. Integers are added, multiplied and negated
alike in both places as long as they have 64 bits, and numbers that are not both such
integers add up as doubles.
-/

namespace DerivedTags.Snippet.Expr

variable {m : Type → Type} [Monad m] [LawfulMonad m] {scope : Scope m}
  {functions : FunctionTable}

/-- Integer literals are literals of their integers. -/
theorem eq_of_ints? {es : List Expr} {ns : List Int64} (h : ints? es = some ns) :
    es = ns.map fun n => .literal (.int n) := by
  induction es generalizing ns with
  | nil =>
    cases h
    rfl
  | cons e rest ih =>
    unfold ints? at h
    split at h
    · rename_i same
      cases same
    · rename_i n others same
      cases same
      obtain ⟨ks, found, rfl⟩ := Option.map_eq_some_iff.mp h
      rw [ih found, List.map_cons]
    · cases h

/-- Zero and an integer add up to the integer. -/
theorem zero_add? (n : Int64) : Whole.add? 0 n = some n :=
  Decimal.signed?_eq_some_iff.mpr (by simp)

/-- Integers that are added up from zero are added up from the first of them. -/
theorem sumInts?_cons (n : Int64) (ns : List Int64) :
    sumInts? (n :: ns) = ns.foldlM Whole.add? n := by
  rw [sumInts?, List.foldlM_cons, zero_add?]
  rfl

/-- One times an integer is the integer. -/
theorem one_mul? (n : Int64) : Whole.mul? 1 n = some n :=
  Decimal.signed?_eq_some_iff.mpr (by simp)

/-- A sum of integers whose partial sums have 64 bits is their sum. -/
theorem evalSum_ints {ns : List Int64} {total n : Int64}
    (h : ns.foldlM Whole.add? total = some n) :
    evalSum scope functions (.int total) (ns.map fun n => .literal (.int n)) = pure (.int n) := by
  induction ns generalizing total with
  | nil =>
    cases h
    rfl
  | cons k rest ih =>
    rw [List.foldlM_cons] at h
    obtain ⟨next, added, onward⟩ := Option.bind_eq_some_iff.mp h
    have step : addValues (.int total) (.int k) = .int next := by simp only [addValues, added]
    rw [List.map_cons, evalSum_cons, eval_literal, pure_bind, step, ih onward]

/-- A product of integers whose partial products have 64 bits is their product. -/
theorem evalProduct_ints {ns : List Int64} {total n : Int64}
    (h : ns.foldlM Whole.mul? total = some n) :
    evalProduct scope functions (.int total) (ns.map fun n => .literal (.int n)) =
      pure (.int n) := by
  induction ns generalizing total with
  | nil =>
    cases h
    rfl
  | cons k rest ih =>
    rw [List.foldlM_cons] at h
    obtain ⟨next, multiplied, onward⟩ := Option.bind_eq_some_iff.mp h
    have step : mulValues (.int total) (.int k) = .int next := by
      simp only [mulValues, multiplied]
    rw [List.map_cons, evalProduct_cons, eval_literal, pure_bind, step, ih onward]

/-- A sum of integers that folding computes evaluates to it. -/
theorem eval_add_ints {ns : List Int64} {n : Int64} (h : sumInts? ns = some n) :
    eval scope functions (.add (ns.map fun n => .literal (.int n))) = pure (.int n) := by
  cases ns with
  | nil =>
    cases h
    rfl
  | cons k rest =>
    rw [sumInts?_cons] at h
    rw [List.map_cons, eval_add_cons, eval_literal, pure_bind]
    exact evalSum_ints h

/-- A product of integers that folding computes evaluates to it. -/
theorem eval_mul_ints {ns : List Int64} {n : Int64} (h : productInts? ns = some n) :
    eval scope functions (.mul (ns.map fun n => .literal (.int n))) = pure (.int n) := by
  cases ns with
  | nil =>
    cases h
    rfl
  | cons k rest =>
    rw [productInts?, List.foldlM_cons, one_mul?] at h
    rw [List.map_cons, eval_mul_cons, eval_literal, pure_bind]
    exact evalProduct_ints h

/-- Whether a value is a number. -/
def IsNumber : Value → Prop
  | .int _ | .float _ => True
  | _ => False

/-- Numeric literals are literals of numbers with their doubles. -/
theorem exists_of_doubles? {e : Expr} {rest : List Expr} {xs : List Float}
    (h : doubles? (e :: rest) = some xs) :
    ∃ v ys, e = .literal v ∧ IsNumber v ∧ doubles? rest = some ys ∧ xs = v.toNumber :: ys := by
  unfold doubles? at h
  split at h
  · rename_i same
    cases same
  · rename_i n others same
    cases same
    obtain ⟨ys, found, rfl⟩ := Option.map_eq_some_iff.mp h
    exact ⟨.int n, ys, rfl, trivial, found, rfl⟩
  · rename_i x others same
    cases same
    obtain ⟨ys, found, rfl⟩ := Option.map_eq_some_iff.mp h
    exact ⟨.float x, ys, rfl, trivial, found, rfl⟩
  · cases h

/-- Numbers add up as doubles, unless both are integers whose sum has 64 bits. -/
theorem addValues_of_isNumber {a b : Value} (ha : IsNumber a) (hb : IsNumber b)
    (wide : ∀ x y, a = .int x → b = .int y → Whole.add? x y = none) :
    addValues a b = .float (a.toNumber + b.toNumber) := by
  cases a with
  | int x =>
    cases b with
    | int y => simp only [addValues, wide x y rfl rfl, Value.toNumber]
    | float y => rfl
    | _ => cases hb
  | float x =>
    cases b with
    | int y => rfl
    | float y => rfl
    | _ => cases hb
  | _ => cases ha

/-- A product evaluates like what folding makes of it. -/
theorem eval_foldMul (es : List Expr) :
    eval scope functions (foldMul es) = eval scope functions (.mul es) := by
  unfold foldMul
  split
  · rename_i n computed
    obtain ⟨ns, found, multiplied⟩ := Option.bind_eq_some_iff.mp computed
    rw [eq_of_ints? found, eval_mul_ints multiplied, eval_literal]
  · rfl

/-- A result that was mapped is that of a computation with a result. -/
theorem exists_of_map_eq_ok {ε α β : Type} {x : Except ε α} {f : α → β} {b : β}
    (h : x.map f = .ok b) : ∃ a, x = .ok a ∧ f a = b := by
  cases x with
  | error e => cases h
  | ok a =>
    cases h
    exact ⟨a, rfl, rfl⟩

/-- A remainder that folding computes is that of the division where it is possible. -/
theorem remainder?_of_remainder {a b n : Int64} (h : Whole.remainder a b = .ok n) :
    Whole.remainder? a b = some n := by
  unfold Whole.remainder at h
  split at h
  · cases h
  · rename_i nonzero
    split at h
    · cases h
    · rename_i fits
      cases h
      rw [Whole.remainder?, if_neg]
      simp only [Bool.or_eq_true, not_or]
      exact ⟨nonzero, fits⟩

/-- An operator with two operands evaluates like what folding makes of it. -/
theorem eval_foldBinary {op : BinaryOp} {left right folded : Expr}
    (h : foldBinary op left right = .ok folded) :
    eval scope functions folded = eval scope functions (.binary op left right) := by
  unfold foldBinary at h
  split at h
  · rename_i a b
    by_cases zero : b == 0
    · rw [if_pos zero] at h
      cases h
      rfl
    · rw [if_neg zero] at h
      obtain ⟨n, computed, rfl⟩ := exists_of_map_eq_ok h
      have value : modValues (.int a) (.int b) = .int n := by
        rw [modValues, if_neg zero, remainder?_of_remainder computed, Option.getD_some]
      rw [eval_binary, eval_literal, eval_literal, eval_literal, pure_bind, pure_bind,
        BinaryOp.apply, value]
      rfl
  · cases h
    rfl

/-- A negative evaluates like what folding makes of it. -/
theorem eval_foldNeg (e : Expr) :
    eval scope functions (foldNeg e) = eval scope functions (.neg e) := by
  unfold foldNeg
  split
  · rename_i n
    split
    · rename_i k negated
      rw [eval_neg, eval_literal, eval_literal, pure_bind]
      simp only [negValue, negated]
    · rfl
  · rw [eval_neg, eval_literal, eval_literal, pure_bind]
    rfl
  · rfl

end DerivedTags.Snippet.Expr
