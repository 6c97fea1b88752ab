import Mathlib
import DerivedTags.Decimal.Arithmetic

/-!
# Adding to the negative zero

A sum of doubles starts from the negative zero, which leaves every double as it
is, the positive zero and what is no number among them.
-/

namespace DerivedTags.Decimal

open Float.Model Float.Model.UnpackedFloat

/-- The negative zero leaves every double as it is. -/
theorem negativeZero_add (x : Float) : -0.0 + x = x := by
  have zero : (-0.0 : Float).toModel.unpack = .zero .negative := rfl
  have sum : UnpackedFloat.add .binary64 (.zero .negative) x.toModel.unpack = x.toModel.unpack := by
    cases x.toModel.unpack with
    | zero sign => cases sign <;> rfl
    | infinity sign => rfl
    | notANumber => rfl
    | finite sign mantissa exponent positive => rfl
  have model : (-0.0 : Float).toModel.add x.toModel = x.toModel := by
    rw [Float.Model.add, zero, sum]
    have bits : UInt64.ofBitVec (UnpackedFloat.pack .binary64 x.toModel.unpack) =
        x.toModel.toBits :=
      congrArg UInt64.ofBitVec (pack_unpack_of_valid x.toModel.valid)
    exact Eq.mpr (Float.Model.mk.injEq ..) bits
  exact congrArg Float.ofModel model

end DerivedTags.Decimal
