import Mathlib
import DerivedTags.Decimal.Binary64

/-!
# Integers as doubles

Every integer becomes a double that is a number. An integer of at most 53 bits does so
without rounding: the double has the sign of the integer and gives the integer back, so that
different integers of this size are different doubles.
-/

namespace DerivedTags.Decimal

open Float.Model Float.Model.UnpackedFloat

/-- The least number of more than 53 bits. -/
def wholeLimit : Nat := 9007199254740992

/-- A mantissa with all its 53 bits. -/
def FullMantissa (m : Nat) : Prop := leadingBit ≤ m ∧ m < wholeLimit

namespace FullMantissa

variable {m : Nat} (full : FullMantissa m)

include full

/-- A full mantissa is positive. -/
theorem pos : 0 < m := Nat.lt_of_lt_of_le (by decide) full.1

/-- The bits of a full mantissa that was shifted. -/
theorem log2_shiftLeft (k : Nat) : (m <<< k).log2 = 52 + k := by
  obtain ⟨low, high⟩ := full
  have power : 0 < 2 ^ k := Nat.two_pow_pos k
  have above : 2 ^ (52 + k) ≤ m * 2 ^ k := by
    rw [Nat.pow_add]
    exact Nat.mul_le_mul_right _ low
  have below : m * 2 ^ k < 2 ^ (52 + k + 1) := by
    rw [Nat.add_right_comm, Nat.pow_add]
    exact Nat.mul_lt_mul_of_pos_right high power
  have nonzero : m * 2 ^ k ≠ 0 := Nat.ne_of_gt (Nat.lt_of_lt_of_le (Nat.two_pow_pos _) above)
  rw [Nat.shiftLeft_eq]
  exact (Nat.log2_eq_iff nonzero).mpr ⟨above, below⟩

end FullMantissa

/-- Zeros that were shifted in from the right are shifted out again without a trace. -/
theorem shiftRight_shiftLeft (m k : Nat) :
    ExtendedMantissa.ofMantissaAndAccuracy (m <<< k) .exact >>> k = ⟨m, false, false⟩ := by
  induction k generalizing m with
  | zero => rfl
  | succ k ih =>
    have half : 2 * m / 2 = m := Nat.mul_div_cancel_left m (by decide)
    have even : 2 * m % 2 = 0 := Nat.mul_mod_right 2 m
    change ExtendedMantissa.shiftRightOne
      (ExtendedMantissa.ofMantissaAndAccuracy (m <<< (k + 1)) .exact >>> k) = _
    rw [Nat.shiftLeft_succ_inside, ih, ExtendedMantissa.shiftRightOne, half, even]
    rfl

/-- Shifted back to its own exponent, a full mantissa has nothing to round. -/
theorem roundWithAccuracy_shiftLeft {m : Nat} (full : FullMantissa m) (sign : Sign) (k : Nat)
    {e : Int} (low : -1074 ≤ e) :
    roundWithAccuracy .binary64 sign (m <<< k) (e - k) .exact = .finite sign m e full.pos := by
  have least : Format.binary64.minExponent = -1074 := rfl
  have bits : Format.binary64.mantissaBits = 53 := rfl
  have shift (j : Nat) : shiftToTargetExponent .binary64 (m <<< j) (e - j) .exact =
      (⟨m, false, false⟩, e) := by
    have target : Format.binary64.targetExponent (totalExponent (m <<< j) (e - j)) = e := by
      rw [totalExponent, full.log2_shiftLeft, Format.targetExponent, least, bits]
      omega
    have amount : (e - (e - j)).toNat = j := by omega
    rw [shiftToTargetExponent, target, shiftToExponent, amount, shiftRight_shiftLeft]
    exact congrArg _ (by omega)
  have again : shiftToTargetExponent .binary64 m e .exact = (⟨m, false, false⟩, e) := by
    simpa using shift 0
  have rounded : ExtendedMantissa.roundedMantissa ⟨m, false, false⟩ = m := rfl
  simp only [roundWithAccuracy, shift, rounded, again, Nat.ne_of_gt full.pos, dite_false]

/-- A double with a full mantissa is unpacked from its bits as it was packed. -/
theorem unpack_pack_finite {m : Nat} (full : FullMantissa m) (sign : Sign) {e : Int}
    (low : -1074 ≤ e) (high : e ≤ 971) :
    UnpackedFloat.unpack .binary64 (UnpackedFloat.pack .binary64 (.finite sign m e full.pos)) =
      .finite sign m e full.pos := by
  obtain ⟨biased, rfl⟩ : ∃ b : Nat, e = b - 1075 := ⟨(e + 1075).toNat, by omega⟩
  have packed : UnpackedFloat.pack .binary64 (.finite sign m (biased - 1075) full.pos) =
      packComponents .binary64 sign (BitVec.ofNat 11 biased) (BitVec.ofNat 52 m) := by
    have bias : Format.binary64.exponentBias = 1023 := rfl
    have bits : Format.binary64.mantissaBits = 53 := rfl
    have log : m.log2 = 52 := full.log2_shiftLeft 0
    have stored : ((biased : Int) - 1075 + (1023 : Nat) + (52 : Nat)).toNat = biased := by omega
    rw [UnpackedFloat.pack]
    dsimp only
    rw [bias, bits, stored, if_neg (by omega), if_pos (by omega)]
  have exponent : (BitVec.ofNat 11 biased).toNat = biased := Nat.mod_eq_of_lt (by omega)
  have bottom : BitVec.ofNat 11 biased ≠ 0#11 := fun same => by
    have := exponent.symm.trans (congrArg BitVec.toNat same)
    simp only [BitVec.toNat_zero] at this
    omega
  have top : BitVec.ofNat 11 biased ≠ -1#11 := fun same => by
    have := exponent.symm.trans (congrArg BitVec.toNat same)
    simp only [BitVec.reduceNeg, BitVec.reduceToNat] at this
    omega
  have mantissa : (1#1 ++ BitVec.ofNat 52 m).toNat = m := by
    obtain ⟨above, below⟩ := full
    unfold leadingBit at above
    unfold wholeLimit at below
    rw [BitVec.toNat_append, ← Nat.shiftLeft_add_eq_or_of_lt (BitVec.ofNat 52 m).isLt]
    simp only [BitVec.toNat_ofNat]
    omega
  rw [packed, UnpackedFloat.unpack]
  simp only [unpackMantissa_packComponents, unpackExponent_packComponents,
    unpackSign_packComponents, Sign.ofBitVec_toBitVec, top, bottom, if_false, mantissa, exponent]
  rfl

/-- One is the neutral double of products. -/
theorem mul_one {m : Nat} (full : FullMantissa m) {e : Int} (low : -1074 ≤ e) :
    UnpackedFloat.mul .binary64 (.finite .positive m e full.pos)
      (.finite .positive leadingBit (-52) (by decide)) = .finite .positive m e full.pos := by
  have shifted : m * leadingBit = m <<< 52 := (Nat.shiftLeft_eq m 52).symm
  have product := roundWithAccuracy_shiftLeft full .positive 52 low
  rw [← shifted] at product
  exact product

/-- A positive number below the bound is the double of itself. -/
theorem ofNat_eq_finite {n k : Nat} (pos : 0 < n) (log : n.log2 + k = 52)
    (full : FullMantissa (n <<< k)) :
    UnpackedFloat.ofNat .binary64 n = .finite .positive (n <<< k) (-k) full.pos := by
  have above : compare (n : Int) 0 = .gt := compare_gt_iff_gt.mpr (by omega)
  have target : Format.binary64.targetExponent (totalExponent n 0) = -k := by
    have least : Format.binary64.minExponent = -1074 := rfl
    have bits : Format.binary64.mantissaBits = 53 := rfl
    rw [Format.targetExponent, totalExponent, least, bits]
    omega
  have amount : ((0 : Int) - -k).toNat = k := by omega
  have last : (0 : Int) - k = -k - (0 : Nat) := by omega
  rw [UnpackedFloat.ofNat, UnpackedFloat.ofInt, UnpackedFloat.normalize, above]
  dsimp only
  rw [Int.toNat_natCast, UnpackedFloat.round, target]
  dsimp only
  rw [decreaseExponent, amount]
  dsimp only
  rw [last]
  exact roundWithAccuracy_shiftLeft full .positive 0 (by omega)

/-- A positive number below the bound has a full mantissa when it is shifted far enough. -/
theorem exists_fullMantissa {n : Nat} (pos : 0 < n) (small : n < wholeLimit) :
    ∃ k, n.log2 + k = 52 ∧ FullMantissa (n <<< k) := by
  have nonzero : n ≠ 0 := Nat.ne_of_gt pos
  obtain ⟨low, high⟩ := (Nat.log2_eq_iff nonzero).mp rfl
  have log : n.log2 < 53 := (Nat.log2_lt nonzero).mpr small
  obtain ⟨k, whole⟩ : ∃ k, n.log2 + k = 52 := ⟨52 - n.log2, by omega⟩
  refine ⟨k, whole, ?_, ?_⟩
  · calc leadingBit = 2 ^ n.log2 * 2 ^ k := by rw [← Nat.pow_add, whole]; rfl
      _ ≤ n * 2 ^ k := Nat.mul_le_mul_right _ low
      _ = n <<< k := (Nat.shiftLeft_eq n k).symm
  · calc n <<< k = n * 2 ^ k := Nat.shiftLeft_eq n k
      _ < 2 ^ (n.log2 + 1) * 2 ^ k := Nat.mul_lt_mul_of_pos_right high (Nat.two_pow_pos k)
      _ = wholeLimit := by rw [← Nat.pow_add, Nat.add_right_comm, whole]; rfl

/-- A positive number below the bound, unpacked as a double. -/
theorem exists_unpack_ofNat {n : Nat} (pos : 0 < n) (small : n < wholeLimit) :
    ∃ (k : Nat) (full : FullMantissa (n <<< k)), k ≤ 52 ∧
      (Float.ofNat n).toModel.unpack = .finite .positive (n <<< k) (-k) full.pos := by
  obtain ⟨k, log, full⟩ := exists_fullMantissa pos small
  have word : n.toUInt64.toNat = n := Nat.mod_eq_of_lt (Nat.lt_trans small (by decide))
  have converted : n.toUInt64.toFloat.toModel.unpack =
      .finite .positive (n <<< k) (-k) full.pos := by
    change UnpackedFloat.unpack .binary64 (UnpackedFloat.pack .binary64
      (UnpackedFloat.ofNat .binary64 n.toUInt64.toNat)) = _
    rw [word, ofNat_eq_finite pos log full]
    exact unpack_pack_finite full .positive (by omega) (by omega)
  have one : (Float.exactlyRepresentablePowersOfTen[0]).toModel.unpack =
      .finite .positive leadingBit (-52) (by decide) := rfl
  have product : Float.ofNat n =
      n.toUInt64.toFloat * Float.exactlyRepresentablePowersOfTen[0] := by
    change Float.ofScientific n false 0 = _
    rw [Float.ofScientific, dif_pos ⟨small, by decide⟩]
    rfl
  refine ⟨k, full, by omega, ?_⟩
  rw [product]
  change UnpackedFloat.unpack .binary64 (UnpackedFloat.pack .binary64
    (UnpackedFloat.mul .binary64 n.toUInt64.toFloat.toModel.unpack
      (Float.exactlyRepresentablePowersOfTen[0]).toModel.unpack)) = _
  rw [converted, one, mul_one full (by omega)]
  exact unpack_pack_finite full .positive (by omega) (by omega)

/-- An unpacked double whose value is an integer, written with a full mantissa. -/
inductive IsInteger : Int → UnpackedFloat → Prop where
  /-- Zero. -/
  | zero : IsInteger 0 (.zero .positive)
  /-- A number that was shifted until its mantissa was full. -/
  | finite (sign : Sign) {n k : Nat} (full : FullMantissa (n <<< k)) :
    IsInteger (sign.apply n) (.finite sign (n <<< k) (-k) full.pos)

namespace IsInteger

/-- An integer below the bound becomes a double without loss. -/
theorem ofInt {z : Int} (small : z.natAbs < wholeLimit) :
    IsInteger z (Float.ofInt z).toModel.unpack := by
  rcases z with n | n
  · rcases Nat.eq_zero_or_pos n with rfl | pos
    · exact .zero
    · obtain ⟨k, full, _, unpacked⟩ := exists_unpack_ofNat pos small
      change IsInteger n (Float.ofNat n).toModel.unpack
      rw [unpacked]
      exact .finite .positive full
  · obtain ⟨k, full, most, unpacked⟩ := exists_unpack_ofNat n.succ_pos small
    change IsInteger (Int.negSucc n) (UnpackedFloat.unpack .binary64
      (UnpackedFloat.pack .binary64 (Float.ofNat n.succ).toModel.unpack.neg))
    rw [unpacked]
    change IsInteger _ (UnpackedFloat.unpack .binary64
      (UnpackedFloat.pack .binary64 (.finite .negative (n.succ <<< k) (-k) full.pos)))
    rw [unpack_pack_finite full .negative (by omega) (by omega)]
    exact .finite .negative full

variable {z : Int} {u : UnpackedFloat} (h : IsInteger z u)

include h

/-- The double of an integer is a number. -/
theorem isNaN_eq : u.isNaN = false := by
  cases h <;> rfl

/-- The double of an integer is cut off to that integer. -/
theorem toInt_eq (low high : Int) : u.toInt low high = z := by
  cases h with
  | zero => rfl
  | @finite sign n k full =>
    have up : ((-k : Int) - 0).toNat = 0 := by omega
    have down : ((0 : Int) - -k).toNat = k := by omega
    rw [UnpackedFloat.toInt, roundToInt, decreaseExponent, up]
    dsimp only
    rw [Nat.shiftLeft_zero, Int.natCast_zero, Int.sub_zero, shiftToExponent, down,
      shiftRight_shiftLeft]

/-- The double of an integer that is not negative is not below zero. -/
theorem lt_zero_eq (nonneg : 0 ≤ z) (sign : Sign) : u.lt (.zero sign) = false := by
  cases h with
  | zero => rfl
  | @finite own n k full =>
    cases own with
    | positive => rfl
    | negative =>
      obtain rfl : n = 0 := by
        change 0 ≤ -(n : Int) at nonneg
        omega
      exact absurd full.pos (by simp)

end IsInteger

/-- Only the topmost exponent with a mantissa is no number. -/
theorem isNaN_unpack_packComponents (sign : Sign) {exponent : BitVec 11} {mantissa : BitVec 52}
    (number : exponent ≠ -1#11 ∨ mantissa = 0#52) :
    (UnpackedFloat.unpack .binary64
      (packComponents .binary64 sign exponent mantissa)).isNaN = false := by
  rw [UnpackedFloat.unpack]
  simp only [unpackMantissa_packComponents, unpackExponent_packComponents]
  split
  · rename_i top
    rw [if_pos (number.resolve_left (not_not_intro top))]
    rfl
  · split
    · split <;> rfl
    · rfl

/-- What is a number stays one when it is packed. -/
theorem isNaN_unpack_pack {u : UnpackedFloat} (number : u.isNaN = false) :
    (UnpackedFloat.unpack .binary64 (UnpackedFloat.pack .binary64 u)).isNaN = false := by
  cases u with
  | notANumber => cases number
  | infinity sign => exact isNaN_unpack_packComponents sign (.inr rfl)
  | zero sign => exact isNaN_unpack_packComponents sign (.inr rfl)
  | finite sign mantissa exponent positive =>
    rw [UnpackedFloat.pack]
    dsimp only
    split
    · exact isNaN_unpack_packComponents sign (.inr rfl)
    · rename_i small
      have range : 2 ^ Format.binary64.exponentBits = 2048 := rfl
      split
      · refine isNaN_unpack_packComponents sign (.inl fun top => ?_)
        have same := congrArg BitVec.toNat top
        have last : (-1#11 : BitVec 11).toNat = 2047 := rfl
        rw [BitVec.toNat_ofNat, range, last, Nat.mod_eq_of_lt (by omega)] at same
        omega
      · exact isNaN_unpack_packComponents sign (.inl (by decide))

/-- What was rounded is a number. -/
theorem isNaN_roundWithAccuracy (spec : Format) (sign : Sign) (mantissa : Nat) (exponent : Int)
    (accuracy : Accuracy) :
    (roundWithAccuracy spec sign mantissa exponent accuracy).isNaN = false := by
  simp only [roundWithAccuracy]
  split <;> rfl

/-- A product of finite doubles that are not zero is a number. -/
theorem isNaN_mul_finite (spec : Format) (sign sign' : Sign) {m m' : Nat} (e e' : Int)
    (pos : 0 < m) (pos' : 0 < m') :
    (UnpackedFloat.mul spec (.finite sign m e pos) (.finite sign' m' e' pos')).isNaN = false := by
  rw [UnpackedFloat.mul]
  exact isNaN_roundWithAccuracy ..

/-- A natural number is a number as a double. -/
theorem isNaN_ofNat (n : Nat) : (Float.ofNat n).isNaN = false := by
  by_cases small : n < wholeLimit
  · exact (IsInteger.ofInt (z := n) small).isNaN_eq
  · have large : Float.ofNat n = ⟨Float.Model.ofScientific n 0⟩ := by
      change Float.ofScientific n false 0 = _
      rw [Float.ofScientific, dif_neg fun fast => small fast.1]
      rfl
    have nonzero : n ≠ 0 := by
      rintro rfl
      exact small (by decide)
    rw [large]
    refine isNaN_unpack_pack ?_
    have range : (2 : Int) ^ Format.binary64.exponentBits = 2048 := rfl
    have low : ¬ ((0 : Int) < -(2 ^ Format.binary64.exponentBits + (n.log2 : Int))) := by omega
    rw [UnpackedFloat.ofScientific, dif_neg nonzero, if_neg (by decide), if_neg low,
      if_pos (Int.le_refl 0)]
    exact isNaN_mul_finite ..

/-- An integer is a number as a double. -/
theorem isNaN_ofInt (z : Int) : (Float.ofInt z).isNaN = false := by
  cases z with
  | ofNat n => exact isNaN_ofNat n
  | negSucc n =>
    have number := isNaN_ofNat n.succ
    change (Float.ofNat n.succ).toModel.unpack.isNaN = false at number
    change (UnpackedFloat.unpack .binary64
      (UnpackedFloat.pack .binary64 (Float.ofNat n.succ).toModel.unpack.neg)).isNaN = false
    refine isNaN_unpack_pack ?_
    cases h : (Float.ofNat n.succ).toModel.unpack with
    | notANumber => rw [h] at number; exact number
    | _ => rfl

/-- The double of an integer equals itself. -/
theorem ofInt_beq_self (z : Int) : (Float.ofInt z == Float.ofInt z) = true := by
  have number : (Float.ofInt z).toModel.unpack ≠ .notANumber := fun same =>
    Bool.false_ne_true ((isNaN_ofInt z).symm.trans (isNaN_iff.mpr same))
  exact (beq_iff_ne_notANumber_and_eq _ _).mpr ⟨number, number, .inl rfl⟩

section Doubles

variable {z : Int} (small : z.natAbs < wholeLimit)

include small

/-- The double of an integer below the bound is below zero only if the integer is. -/
theorem not_ofInt_lt_zero (nonneg : 0 ≤ z) : ¬ Float.ofInt z < 0.0 := by
  intro below
  have zero : (0.0 : Float).toModel.unpack = .zero .positive := rfl
  have less : (Float.ofInt z).toModel.unpack.lt (0.0 : Float).toModel.unpack = true :=
    of_decide_eq_true below
  rw [zero, (IsInteger.ofInt small).lt_zero_eq nonneg] at less
  cases less

/-- The double of a natural number below the bound becomes that number again. -/
theorem toNat_toUInt64_ofInt (nonneg : 0 ≤ z) : ((Float.ofInt z).toUInt64.toNat : Int) = z := by
  have whole := (IsInteger.ofInt small).toInt_eq 0 (UInt64.size - 1)
  have word : z.toNat < UInt64.size := by
    have : wholeLimit < UInt64.size := by decide
    omega
  change ((UInt64.ofNatClamp (UnpackedFloat.toInt 0 (UInt64.size - 1)
    (Float.ofInt z).toModel.unpack).toNat).toNat : Int) = z
  rw [whole, UInt64.toNat_ofNatClamp_of_lt word]
  omega

/-- Different integers below the bound are different doubles. -/
theorem ofInt_beq_ofInt {y : Int} (other : y.natAbs < wholeLimit) :
    (Float.ofInt z == Float.ofInt y) = true ↔ z = y := by
  have left := IsInteger.ofInt small
  have right := IsInteger.ofInt other
  refine ⟨fun same => ?_, fun same => same ▸ ofInt_beq_self z⟩
  obtain ⟨-, -, same⟩ := (beq_iff_ne_notANumber_and_eq _ _).mp same
  rw [← left.toInt_eq 0 0, ← right.toInt_eq 0 0]
  rcases same with same | ⟨here, there⟩ | ⟨here, there⟩
  · rw [same]
  · rw [here, there]; rfl
  · rw [here, there]; rfl

end Doubles

end DerivedTags.Decimal
