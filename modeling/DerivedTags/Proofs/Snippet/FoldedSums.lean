import DerivedTags.Proofs.Decimal.NegativeZero
import DerivedTags.Proofs.Snippet.FoldedConstants

/-!
# Sums that folding computes

Evaluation adds integers exactly as long as the partial sums have 64 bits, then goes on
with doubles. Folding adds a sum that is not one of integers as doubles from its first
operand on. Both give the same where rounding each of the leading integers comes to what
rounding their sum does, and nowhere else.
-/

namespace DerivedTags.Snippet.Expr

/-- Behind an integer stand integers with which all partial sums have 64 bits, then a number
with which the sum has not, then more numbers. -/
inductive LeavesIntegers (n : Int64) : List Expr → List Int64 → Int64 → List Float → Prop where
  /-- The integers with their sum, and the doubles of what follows them. -/
  | intro {total : Int64} {ns : List Int64} {next : Value} {others : List Expr}
    {xs : List Float} (exact : ns.foldlM Whole.add? n = some total)
    (leaves : ∀ k, next = .int k → Whole.add? total k = none)
    (numbers : doubles? (.literal next :: others) = some xs) :
    LeavesIntegers n (ns.map (fun k => .literal (.int k)) ++ .literal next :: others) ns total xs

/-- Wherever a sum leaves the integers, rounding each of them comes to what rounding their
sum does. -/
def RoundsAlike (es : List Expr) : Prop :=
  ∀ ⦃n rest ns total xs⦄, es = .literal (.int n) :: rest → LeavesIntegers n rest ns total xs →
    (ns.map Whole.toFloat ++ xs).foldl (· + ·) (Whole.toFloat n) =
      xs.foldl (· + ·) (Whole.toFloat total)

/-- Numbers behind an integer leave the integers somewhere, unless they are integers with
which all partial sums have 64 bits. -/
theorem exact_or_leavesIntegers {es : List Expr} {xs : List Float}
    (h : doubles? es = some xs) (n : Int64) :
    (∃ (ns : List Int64) (total : Int64), es = ns.map (fun k => .literal (.int k)) ∧
        ns.foldlM Whole.add? n = some total) ∨
      ∃ ns total ys, LeavesIntegers n es ns total ys := by
  induction es generalizing n xs with
  | nil => exact .inl ⟨[], n, rfl, rfl⟩
  | cons e rest ih =>
    obtain ⟨v, ys, rfl, number, found, rfl⟩ := exists_of_doubles? h
    by_cases stays : ∃ k next, v = .int k ∧ Whole.add? n k = some next
    · obtain ⟨k, next, rfl, added⟩ := stays
      have longer (ns : List Int64) :
          (k :: ns).foldlM Whole.add? n = ns.foldlM Whole.add? next := by
        rw [List.foldlM_cons, added]
        rfl
      rcases ih found next with ⟨ns, total, rfl, exact⟩ | ⟨ns, total, zs, ⟨exact, leaves, numbers⟩⟩
      · exact .inl ⟨k :: ns, total, rfl, (longer ns).trans exact⟩
      · exact .inr ⟨k :: ns, total, zs, .intro ((longer ns).trans exact) leaves numbers⟩
    · have nothing : ([] : List Int64).foldlM Whole.add? n = some n := rfl
      refine .inr ⟨[], n, _, .intro nothing (fun k same => ?_) h⟩
      exact Option.eq_none_iff_forall_ne_some.mpr fun next added => stays ⟨k, next, same, added⟩

/-- The doubles of integers and of what follows them. -/
theorem doubles?_append (ns : List Int64) {es : List Expr} {xs : List Float}
    (h : doubles? es = some xs) :
    doubles? (ns.map (fun k => .literal (.int k)) ++ es) = some (ns.map Whole.toFloat ++ xs) := by
  induction ns with
  | nil => exact h
  | cons n rest ih =>
    rw [List.map_cons, List.cons_append, doubles?, ih]
    rfl

/-- The integers among which other integers follow. -/
theorem ints?_append (ns : List Int64) (es : List Expr) :
    ints? (ns.map (fun k => .literal (.int k)) ++ es) = (ints? es).map (ns ++ ·) := by
  induction ns with
  | nil => simp
  | cons n rest ih =>
    rw [List.map_cons, List.cons_append, ints?, ih, Option.map_map]
    rfl

/-- The integers among their literals. -/
theorem ints?_map (ns : List Int64) :
    ints? (ns.map fun k => .literal (.int k)) = some ns := by
  have whole := ints?_append ns []
  rwa [List.append_nil, ints?, Option.map_some, List.append_nil] at whole

/-- Doubles are added up from the first of them. -/
theorem sum_cons (x : Float) (xs : List Float) :
    Decimal.sum (x :: xs) = xs.foldl (· + ·) x :=
  congrArg (xs.foldl (· + ·)) (Decimal.negativeZero_add x)

/-- A sum that is not one of integers is folded as one of doubles. -/
theorem foldAdd_doubles {es : List Expr} {x : Float} {xs : List Float}
    (inexact : (ints? es).bind sumInts? = none) (h : doubles? es = some (x :: xs)) :
    foldAdd es = .literal (.float (xs.foldl (· + ·) x)) := by
  rw [foldAdd, inexact, h, ← sum_cons]

variable {m : Type → Type} [Monad m] [LawfulMonad m] {scope : Scope m}
  {functions : FunctionTable}

/-- A sum over two lists goes on with the second one. -/
theorem evalSum_append (total : Value) (es fs : List Expr) :
    evalSum scope functions total (es ++ fs) =
      evalSum scope functions total es >>= fun v => evalSum scope functions v fs := by
  induction es generalizing total with
  | nil => rw [List.nil_append, evalSum, pure_bind]
  | cons e rest ih =>
    rw [List.cons_append, evalSum_cons, evalSum_cons, bind_assoc]
    exact congrArg _ (funext fun v => ih (addValues total v))

/-- Numbers add up to a double as doubles. -/
theorem evalSum_doubles {es : List Expr} {xs : List Float} (h : doubles? es = some xs)
    (total : Float) :
    evalSum scope functions (.float total) es = pure (.float (xs.foldl (· + ·) total)) := by
  induction es generalizing xs total with
  | nil =>
    cases h
    rfl
  | cons e rest ih =>
    obtain ⟨v, ys, rfl, number, found, rfl⟩ := exists_of_doubles? h
    have step : addValues (.float total) v = .float (total + v.toNumber) :=
      addValues_of_isNumber trivial number fun _ _ no => nomatch no
    rw [evalSum_cons, eval_literal, pure_bind, step, ih found, List.foldl_cons]

namespace LeavesIntegers

variable {n total : Int64} {es : List Expr} {ns : List Int64} {xs : List Float}

/-- Evaluation rounds the sum of the integers. -/
theorem eval_add (leaves : LeavesIntegers n es ns total xs) :
    eval scope functions (.add (.literal (.int n) :: es)) =
      pure (.float (xs.foldl (· + ·) (Whole.toFloat total))) := by
  obtain @⟨_, _, next, others, _, exact, wide, numbers⟩ := leaves
  obtain ⟨v, zs, same, number, found, rfl⟩ := exists_of_doubles? numbers
  obtain rfl := Expr.literal.inj same
  have step : addValues (.int total) next = .float (Whole.toFloat total + next.toNumber) :=
    addValues_of_isNumber trivial number fun x y here there => by
      cases here
      exact wide y there
  rw [eval_add_cons, eval_literal, pure_bind, evalSum_append, evalSum_ints exact, pure_bind,
    evalSum_cons, eval_literal, pure_bind, step, evalSum_doubles found, List.foldl_cons]

/-- Folding rounds each of the integers. -/
theorem foldAdd (leaves : LeavesIntegers n es ns total xs) :
    foldAdd (.literal (.int n) :: es) =
      .literal (.float ((ns.map Whole.toFloat ++ xs).foldl (· + ·) (Whole.toFloat n))) := by
  obtain @⟨_, _, next, others, _, exact, wide, numbers⟩ := leaves
  refine foldAdd_doubles ?_ (doubles?_append (n :: ns) numbers)
  have among := ints?_append (n :: ns) (.literal next :: others)
  rw [List.map_cons, List.cons_append] at among
  rw [among]
  rcases found : ints? (.literal next :: others) with _ | ks
  · rfl
  · cases ks with
    | nil => cases eq_of_ints? found
    | cons k ks =>
      obtain ⟨head, -⟩ := List.cons.inj (eq_of_ints? found)
      rw [Option.map_some, Option.bind_some, List.cons_append, sumInts?_cons, List.foldlM_append,
        exact]
      have stops := wide k (Expr.literal.inj head)
      rw [Option.bind_eq_bind, Option.bind_some, List.foldlM_cons, stops]
      rfl

end LeavesIntegers

/-- A sum that rounds alike evaluates like what folding makes of it. -/
theorem eval_foldAdd_of_roundsAlike {es : List Expr} (alike : RoundsAlike es) :
    eval scope functions (foldAdd es) = eval scope functions (.add es) := by
  rcases computed : (ints? es).bind sumInts? with _ | n
  · rcases numbers : doubles? es with _ | xs
    · rw [foldAdd, computed, numbers]
    · cases es with
      | nil => cases computed
      | cons e rest =>
        obtain ⟨v, ys, rfl, number, found, rfl⟩ := exists_of_doubles? numbers
        cases v with
        | int n =>
          rcases exact_or_leavesIntegers found n with
            ⟨ns, total, rfl, exact⟩ | ⟨ns, total, zs, leaves⟩
          · have whole := ints?_map (n :: ns)
            rw [List.map_cons] at whole
            rw [whole, Option.bind_some, sumInts?_cons, exact] at computed
            cases computed
          · rw [leaves.foldAdd, leaves.eval_add, alike rfl leaves, eval_literal]
        | float x =>
          rw [foldAdd_doubles computed numbers, eval_add_cons, eval_literal, eval_literal,
            pure_bind, evalSum_doubles found, Value.toNumber]
        | _ => cases number
  · obtain ⟨ns, found, summed⟩ := Option.bind_eq_some_iff.mp computed
    rw [foldAdd, computed, eq_of_ints? found, eval_add_ints summed, eval_literal]

/-- A sum of at most two operands leaves the integers before the second one, if it does. -/
theorem roundsAlike_of_few {es : List Expr} (few : es.length ≤ 2) : RoundsAlike es := by
  rintro n _ _ total xs rfl ⟨exact, leaves, numbers⟩
  rename_i ns next others
  simp only [List.length_cons, List.length_append, List.length_map] at few
  obtain rfl : ns = [] := List.length_eq_zero_iff.mp (by omega)
  cases exact
  rfl

end DerivedTags.Snippet.Expr
