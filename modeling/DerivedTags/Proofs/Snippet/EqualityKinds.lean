import DerivedTags.Proofs.Decimal.SmallIntegers
import DerivedTags.Snippet.Equality

/-!
# Loose and strict equality within one type

Strict equality and the order of values compare two integers as integers, loose equality
compares them as doubles. Within one primitive type nothing else sets the two equalities
apart, and nothing else makes values equal that the order tells apart.
-/

namespace DerivedTags.Snippet.Value

open Decimal (wholeLimit)

/-- Different integers with the same nearest double. -/
inductive Blurred : Value → Value → Prop where
  /-- Two integers. -/
  | intro {m n : Int64} (different : m ≠ n) (near : (Whole.toFloat m == Whole.toFloat n) = true) :
    Blurred (.int m) (.int n)

/-- Pairs of values of one primitive type, by the representations of numbers. -/
inductive OneType : Value → Value → Prop where
  /-- Two truth values. -/
  | bools (p q : Bool) : OneType (.bool p) (.bool q)
  /-- Two integers. -/
  | ints (m n : Int64) : OneType (.int m) (.int n)
  /-- An integer and a double. -/
  | intFloat (m : Int64) (y : Float) : OneType (.int m) (.float y)
  /-- A double and an integer. -/
  | floatInt (x : Float) (n : Int64) : OneType (.float x) (.int n)
  /-- Two doubles. -/
  | floats (x y : Float) : OneType (.float x) (.float y)
  /-- Two texts. -/
  | texts (s t : String) : OneType (.str s) (.str t)

/-- Values with the same type name among the primitive ones are of one primitive type. -/
theorem oneType_of_typeName {a b : Value} (same : a.typeName = b.typeName)
    (primitive : a.typeName ∈ ["boolean", "number", "string"]) : OneType a b := by
  cases a <;> cases b <;> first | constructor | simp [typeName] at same primitive

/-- The order by a test for equality and one for what comes first puts two things in the same
place exactly if the first test holds. -/
theorem ordering_eq_eq_iff (same before : Prop) [Decidable same] [Decidable before] :
    (if same then Ordering.eq else if before then .lt else .gt) = .eq ↔ same := by
  split
  · rename_i equal
    exact iff_of_true rfl equal
  · rename_i unequal
    exact iff_of_false (by split <;> nofun) unequal

/-- Integers are in the same place exactly if they are equal. -/
theorem compareInts_eq_eq_iff (m n : Int64) :
    compareInts m.toInt n.toInt = .eq ↔ m = n :=
  (ordering_eq_eq_iff _ _).trans Int64.toInt_inj

/-- Texts are in the same place exactly if they are equal. -/
theorem compareTexts_eq_eq_iff (s t : String) : compareTexts s t = .eq ↔ s = t :=
  ordering_eq_eq_iff _ _

/-- Doubles are in the same place exactly if they are equal. -/
theorem compareFloats_eq_eq_iff (x y : Float) :
    compareFloats x y = some .eq ↔ (x == y) = true := by
  unfold compareFloats
  split
  · rename_i equal
    exact iff_of_true rfl equal
  · rename_i unequal
    refine iff_of_false ?_ unequal
    split
    · nofun
    · split <;> nofun

variable {a b : Value}

/-- Blurred integers are strictly different and loosely equal. -/
theorem Blurred.equalities (blurred : Blurred a b) :
    a.identical b = false ∧ a.equals b = true := by
  cases blurred with
  | intro different near => exact ⟨beq_false_of_ne different, near⟩

/-- Of two blurred integers one does not fit into the bits of a double. -/
theorem Blurred.exists_large (blurred : Blurred a b) :
    ∃ n : Int64, (a = .int n ∨ b = .int n) ∧ wholeLimit ≤ n.toInt.natAbs := by
  cases blurred with
  | @intro m n different near =>
    by_cases small : m.toInt.natAbs < wholeLimit ∧ n.toInt.natAbs < wholeLimit
    · have same := (Decimal.ofInt_beq_ofInt small.1 small.2).mp near
      exact absurd (Int64.toInt_inj.mp same) different
    · by_cases left : m.toInt.natAbs < wholeLimit
      · exact ⟨n, .inr rfl, Nat.le_of_not_lt fun right => small ⟨left, right⟩⟩
      · exact ⟨m, .inl rfl, Nat.le_of_not_lt left⟩

/-- Within one primitive type the equalities agree except on blurred integers. -/
theorem OneType.equals_eq_identical_iff (kind : OneType a b) :
    a.equals b = a.identical b ↔ ¬ Blurred a b := by
  refine ⟨fun same blurred => ?_, fun clear => ?_⟩
  · rw [blurred.equalities.1, blurred.equalities.2] at same
    cases same
  · cases kind with
    | bools p q => cases p <;> cases q <;> rfl
    | ints m n =>
      change (Whole.toFloat m == Whole.toFloat n) = (m == n)
      by_cases same : m = n
      · rw [same, beq_self_eq_true n]
        exact Decimal.ofInt_beq_self n.toInt
      · rw [beq_false_of_ne same, Bool.eq_false_iff]
        exact fun near => clear (.intro same near)
    | intFloat m y => rfl
    | floatInt x n => rfl
    | floats x y => rfl
    | texts s t => rfl

/-- Numbers and texts are strictly equal exactly if the order puts them in the same place. -/
theorem OneType.identical_iff_compare? (kind : OneType a b) (ordered : a.typeName ≠ "boolean") :
    a.identical b = true ↔ a.compare? b = some .eq := by
  cases kind with
  | bools p q => exact absurd rfl ordered
  | ints m n =>
    change (m == n) = true ↔ some (compareInts m.toInt n.toInt) = some .eq
    rw [beq_iff_eq, Option.some.injEq, compareInts_eq_eq_iff]
  | intFloat m y => exact (compareFloats_eq_eq_iff _ _).symm
  | floatInt x n => exact (compareFloats_eq_eq_iff _ _).symm
  | floats x y => exact (compareFloats_eq_eq_iff _ _).symm
  | texts s t =>
    change (s == t) = true ↔ some (compareTexts s t) = some .eq
    rw [beq_iff_eq, Option.some.injEq, compareTexts_eq_eq_iff]

/-- The order tells blurred integers apart. -/
theorem Blurred.compare? (blurred : Blurred a b) :
    a.compare? b = some .lt ∨ a.compare? b = some .gt := by
  cases blurred with
  | @intro m n different near =>
    have apart : compareInts m.toInt n.toInt ≠ .eq := mt (compareInts_eq_eq_iff m n).mp different
    change some (compareInts m.toInt n.toInt) = _ ∨ some (compareInts m.toInt n.toInt) = _
    cases order : compareInts m.toInt n.toInt with
    | lt => exact .inl rfl
    | eq => exact absurd order apart
    | gt => exact .inr rfl

/-- Among numbers and among texts the order tells apart only blurred integers that one of the
equalities does not. -/
theorem OneType.told_apart_iff (kind : OneType a b) (ordered : a.typeName ≠ "boolean") :
    (a.equals b = true ∨ a.identical b = true) ∧
      (a.compare? b = some .lt ∨ a.compare? b = some .gt) ↔ Blurred a b := by
  refine ⟨fun ⟨equal, apart⟩ => ?_,
    fun blurred => ⟨.inl blurred.equalities.2, blurred.compare?⟩⟩
  by_contra clear
  rw [kind.equals_eq_identical_iff.mpr clear, or_self,
    kind.identical_iff_compare? ordered] at equal
  rcases apart with apart | apart <;> cases equal.symm.trans apart

/-- Two truth values, two numbers or two texts are loosely equal exactly if they are strictly
equal, unless they are different integers with the same nearest double. Two numbers or two
texts are strictly equal exactly if the order puts them in the same place, and if they are
equal by either equality, the order puts neither of them first, again unless they are such
integers. One of two such integers is not below the bound up to which doubles hold every
integer. -/
theorem equalities_consistent_iff (a b : Value) (same : a.typeName = b.typeName) :
    (a.typeName ∈ ["boolean", "number", "string"] →
      (a.equals b = a.identical b ↔ ¬ Blurred a b)) ∧
    (a.typeName ∈ ["number", "string"] →
      (a.identical b = true ↔ a.compare? b = some .eq) ∧
      ((a.equals b = true ∨ a.identical b = true) ∧
        (a.compare? b = some .lt ∨ a.compare? b = some .gt) ↔ Blurred a b)) ∧
    (Blurred a b → ∃ n : Int64, (a = .int n ∨ b = .int n) ∧
      9007199254740992 ≤ n.toInt.natAbs) := by
  refine ⟨fun primitive => ?_, fun ordered => ?_, Blurred.exists_large⟩
  · exact (oneType_of_typeName same primitive).equals_eq_identical_iff
  · have kind := oneType_of_typeName same (List.mem_cons_of_mem _ ordered)
    have noBool : a.typeName ≠ "boolean" := fun is => by
      rw [is] at ordered
      exact absurd ordered (by decide)
    exact ⟨kind.identical_iff_compare? noBool, kind.told_apart_iff noBool⟩

/-- An integer and the double of the next one are equal neither way, and the order puts the
integer first. -/
theorem equalities_consistent_neighbours :
    (Value.int 2).typeName = (Value.float 3.0).typeName ∧
      (Value.int 2).equals (.float 3.0) = (Value.int 2).identical (.float 3.0) ∧
      ¬ (((Value.int 2).equals (.float 3.0) = true ∨ (Value.int 2).identical (.float 3.0) = true) ∧
        ((Value.int 2).compare? (.float 3.0) = some .lt ∨
          (Value.int 2).compare? (.float 3.0) = some .gt)) := by
  obtain ⟨equalities, order, -⟩ := equalities_consistent_iff (.int 2) (.float 3.0) rfl
  exact ⟨rfl, (equalities (by decide)).mpr nofun, mt (order (by decide)).2.mp nofun⟩

/-- The least integer that no double holds and the one below it are loosely equal, strictly
different and in different places of the order. -/
theorem equals_ne_identical_neighbours :
    (Value.int 9007199254740993).equals (.int 9007199254740992) = true ∧
      (Value.int 9007199254740993).identical (.int 9007199254740992) = false ∧
      (Value.int 9007199254740993).compare? (.int 9007199254740992) = some .gt := by
  refine ⟨?_, by decide, by decide⟩
  rfl

end DerivedTags.Snippet.Value
