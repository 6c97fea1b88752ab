import Mathlib
import DerivedTags.Decimal.Arithmetic

/-!
# The total order of doubles

The rank of a double orders numbers by their value, and doubles of the same rank have the same
bits.
-/

namespace DerivedTags.Decimal

open Float.Model Float.Model.UnpackedFloat

/-- Doubles of the same rank have the same bits. -/
theorem toBits_eq_of_totalRank_eq {x y : Float} (same : totalRank x = totalRank y) :
    x.toBits = y.toBits := by
  refine UInt64.toNat_inj.mp ?_
  unfold totalRank at same
  dsimp only at same
  split at same <;> split at same <;> omega

/-- A number and its bits below the sign bit, as a natural number. -/
inductive Magnitude : UnpackedFloat → Nat → Prop where
  /-- Zero. -/
  | zero (sign : Sign) : Magnitude (.zero sign) 0
  /-- A finite number. Its mantissa has 53 bits unless its exponent is the least one. -/
  | finite (sign : Sign) {m k : Nat} (pos : 0 < m) (small : m < 2 * leadingBit)
      (full : k = 0 ∨ leadingBit ≤ m) (top : k < 2046) :
      Magnitude (.finite sign m (k - 1074) pos) (k * leadingBit + m)
  /-- An infinity. -/
  | infinity (sign : Sign) : Magnitude (.infinity sign) (2047 * leadingBit)

/-- A finite number by its exponent and magnitude. -/
theorem Magnitude.of_finite {sign : Sign} {m k n : Nat} {exponent : Int} {pos : 0 < m}
    (power : exponent = k - 1074) (total : n = k * leadingBit + m) (small : m < 2 * leadingBit)
    (full : k = 0 ∨ leadingBit ≤ m) (top : k < 2046) :
    Magnitude (.finite sign m exponent pos) n := by
  subst power total
  exact .finite sign pos small full top

/-- The sign of a number. -/
def signOf : UnpackedFloat → Sign
  | .infinity sign | .zero sign | .finite sign _ _ _ => sign
  | .notANumber => .positive

/-- The rank of a number with a sign and a magnitude. -/
def signedRank (k : Nat) : Sign → Int
  | .positive => k
  | .negative => -k - 1

/-- The bits of the mantissa. -/
theorem toNat_unpackMantissa (b : BitVec 64) :
    (@unpackMantissa .binary64 b).toNat = b.toNat % leadingBit := by
  rw [unpackMantissa, BitVec.toNat_cast, BitVec.extractLsb_toNat, Nat.shiftRight_zero]
  rfl

/-- The bits of the exponent. -/
theorem toNat_unpackExponent (b : BitVec 64) :
    (@unpackExponent .binary64 b).toNat = b.toNat / leadingBit % 2048 := by
  rw [unpackExponent, BitVec.toNat_cast, BitVec.extractLsb_toNat, Nat.shiftRight_eq_div_pow]
  rfl

/-- The sign bit. -/
theorem toNat_unpackSign (b : BitVec 64) :
    (@unpackSign .binary64 b).toNat = b.toNat / signBit := by
  have whole := b.isLt
  have range : b.toNat / signBit < 2 := by
    rw [signBit]
    omega
  rw [unpackSign, BitVec.toNat_cast, BitVec.extractLsb_toNat, Nat.shiftRight_eq_div_pow]
  exact Nat.mod_eq_of_lt range

/-- The magnitude of a number are its bits below the sign bit. -/
theorem magnitude_unpack (b : BitVec 64)
    (number : UnpackedFloat.unpack .binary64 b ≠ .notANumber) :
    Magnitude (UnpackedFloat.unpack .binary64 b) (b.toNat % signBit) ∧
      signOf (UnpackedFloat.unpack .binary64 b) =
        Sign.ofBitVec (@unpackSign .binary64 b) := by
  have bound : (@unpackMantissa .binary64 b).toNat < leadingBit :=
    (@unpackMantissa .binary64 b).isLt
  have scale : (@unpackExponent .binary64 b).toNat < 2048 :=
    (@unpackExponent .binary64 b).isLt
  have parts : b.toNat % signBit = (@unpackExponent .binary64 b).toNat * leadingBit +
      (@unpackMantissa .binary64 b).toNat := by
    rw [toNat_unpackMantissa, toNat_unpackExponent, signBit, leadingBit]
    omega
  rw [parts]
  unfold UnpackedFloat.unpack at number ⊢
  dsimp only at number ⊢
  split
  · rename_i top
    rw [if_pos top] at number
    split
    · rename_i none
      rw [top, none]
      exact ⟨.infinity _, rfl⟩
    · rename_i payload
      exact absurd (if_neg payload) number
  · rename_i below
    have last : (@unpackExponent .binary64 b).toNat ≠ 2047 :=
      fun same => below (BitVec.eq_of_toNat_eq same)
    split
    · rename_i least
      rw [least]
      split
      · rename_i none
        rw [none]
        exact ⟨.zero _, rfl⟩
      · refine ⟨?_, rfl⟩
        have size : (@unpackMantissa .binary64 b).toNat < 2 * leadingBit := by omega
        exact .finite (k := 0) _ _ size (.inl rfl) (by decide)
    · rename_i normal
      have first : (@unpackExponent .binary64 b).toNat ≠ 0 :=
        fun same => normal (BitVec.eq_of_toNat_eq same)
      obtain ⟨k, exponent⟩ := Nat.exists_eq_succ_of_ne_zero first
      have mantissa : (1#1 ++ @unpackMantissa .binary64 b).toNat =
          leadingBit + (@unpackMantissa .binary64 b).toNat := by
        rw [BitVec.toNat_append, ← Nat.shiftLeft_add_eq_or_of_lt bound]
        rfl
      refine ⟨.of_finite (k := k) ?_ ?_ ?_ (.inr ?_) (by omega), rfl⟩
      · rw [exponent]
        change ((k + 1 : Nat) : Int) - (1023 + 52) = _
        omega
      · rw [mantissa, exponent, Nat.succ_mul, Nat.add_assoc]
      · rw [mantissa]
        omega
      · rw [mantissa]
        exact Nat.le_add_right _ _

/-- The rank of a double that is a number, by its sign and magnitude. -/
theorem exists_magnitude {x : Float} (number : x.toModel.unpack ≠ .notANumber) :
    ∃ k, Magnitude x.toModel.unpack k ∧ totalRank x = signedRank k (signOf x.toModel.unpack) := by
  obtain ⟨magnitude, sign⟩ := magnitude_unpack x.toModel.toBits.toBitVec number
  refine ⟨_, magnitude, ?_⟩
  have bit := toNat_unpackSign x.toModel.toBits.toBitVec
  have whole : x.toModel.toBits.toBitVec.toNat < 2 * signBit := x.toModel.toBits.toBitVec.isLt
  have bits : x.toBits.toNat = x.toModel.toBits.toBitVec.toNat := rfl
  have own : signOf x.toModel.unpack =
      Sign.ofBitVec (@unpackSign .binary64 x.toModel.toBits.toBitVec) := sign
  rw [own, totalRank, bits, Sign.ofBitVec]
  generalize x.toModel.toBits.toBitVec.toNat = n at bit whole
  have positive : 0 < signBit := by decide
  by_cases low : n < signBit
  · have zero : @unpackSign .binary64 x.toModel.toBits.toBitVec = 0#1 := by
      refine BitVec.eq_of_toNat_eq ?_
      rw [bit, Nat.div_eq_of_lt low]
      rfl
    rw [if_pos zero, signedRank, Nat.mod_eq_of_lt low]
    exact if_pos low
  · have one : @unpackSign .binary64 x.toModel.toBits.toBitVec ≠ 0#1 := by
      intro zero
      rw [zero] at bit
      have := Nat.div_eq_zero_iff.mp bit.symm
      omega
    have rest : n % signBit = n - signBit := by
      rw [Nat.mod_eq_sub_mod (by omega), Nat.mod_eq_of_lt (by omega)]
    rw [if_neg one, signedRank, rest, if_neg low]
    omega

/-- Magnitudes are ordered by exponent, then by mantissa. -/
theorem magnitude_lt {k l m n : Nat} (small : m < 2 * leadingBit) (full : l = 0 ∨ leadingBit ≤ n)
    (less : k < l ∨ k = l ∧ m < n) : k * leadingBit + m < l * leadingBit + n := by
  rw [leadingBit] at *
  omega

/-- The order of positive finite numbers. -/
theorem lt_of_compare {k l m n : Nat}
    (less : (compare ((k : Int) - 1074) ((l : Int) - 1074)).then (compare m n) = .lt) :
    k < l ∨ k = l ∧ m < n := by
  rw [Ordering.then_eq_lt, compare_lt_iff_lt, compare_eq_iff_eq, compare_lt_iff_lt] at less
  omega

/-- The order of negative finite numbers. -/
theorem gt_of_compare {k l m n : Nat}
    (less : ((compare ((k : Int) - 1074) ((l : Int) - 1074)).then (compare m n)).swap = .lt) :
    l < k ∨ l = k ∧ n < m := by
  rw [Ordering.swap_eq_lt, Ordering.then_eq_gt, compare_gt_iff_gt, compare_eq_iff_eq,
    compare_gt_iff_gt] at less
  omega

/-- A finite magnitude is less than that of an infinity. -/
theorem magnitude_lt_infinity {k m : Nat} (small : m < 2 * leadingBit) (top : k < 2046) :
    k * leadingBit + m < 2047 * leadingBit := by
  rw [leadingBit] at *
  omega

/-- A number below another one has a smaller rank. -/
theorem signedRank_lt {u v : UnpackedFloat} {k l : Nat} (left : Magnitude u k)
    (right : Magnitude v l) (less : u.lt v = true) :
    signedRank k (signOf u) < signedRank l (signOf v) := by
  have below : u.compare v = some .lt := beq_iff_eq.mp less
  cases left with
  | zero sign =>
    cases right with
    | zero sign' => cases below
    | finite sign' pos small full top =>
      cases sign' with
      | negative => cases below
      | positive => cases sign <;> simp only [signOf, signedRank] <;> omega
    | infinity sign' =>
      cases sign' with
      | negative => cases below
      | positive => cases sign <;> simp only [signOf, signedRank, leadingBit] <;> omega
  | finite sign pos small full top =>
    cases right with
    | zero sign' =>
      cases sign with
      | negative => cases sign' <;> simp only [signOf, signedRank] <;> omega
      | positive => cases below
    | finite sign' pos' small' full' top' =>
      cases sign with
      | negative =>
        cases sign' with
        | negative =>
          have more := magnitude_lt small' full (gt_of_compare (Option.some.inj below))
          simp only [signOf, signedRank]
          omega
        | positive => simp only [signOf, signedRank]; omega
      | positive =>
        cases sign' with
        | negative => cases below
        | positive =>
          have more := magnitude_lt small full' (lt_of_compare (Option.some.inj below))
          simp only [signOf, signedRank]
          omega
    | infinity sign' =>
      have large := magnitude_lt_infinity small top
      cases sign' with
      | negative => cases sign <;> cases below
      | positive => cases sign <;> simp only [signOf, signedRank] <;> omega
  | infinity sign =>
    cases sign with
    | positive => cases right with
      | infinity sign' => cases sign' <;> cases below
      | _ => cases below
    | negative => cases right with
      | zero sign' => cases sign' <;> simp only [signOf, signedRank, leadingBit] <;> omega
      | finite sign' pos small full top =>
        have large := magnitude_lt_infinity small top
        cases sign' <;> simp only [signOf, signedRank] <;> omega
      | infinity sign' =>
        cases sign' with
        | negative => cases below
        | positive => simp only [signOf, signedRank]; omega

/-- A double below another one has a smaller rank. -/
theorem totalRank_lt_of_lt {x y : Float} (less : x < y) : totalRank x < totalRank y := by
  have below : x.toModel.unpack.lt y.toModel.unpack = true := of_decide_eq_true less
  have left : x.toModel.unpack ≠ .notANumber := fun none => by
    rw [none] at below
    cases below
  have right : y.toModel.unpack ≠ .notANumber := fun none => by
    rw [none] at below
    cases h : x.toModel.unpack <;> rw [h] at below <;> cases below
  obtain ⟨k, first, rank⟩ := exists_magnitude left
  obtain ⟨l, second, rank'⟩ := exists_magnitude right
  rw [rank, rank']
  exact signedRank_lt first second below

end DerivedTags.Decimal
