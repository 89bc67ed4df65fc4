import Mathlib
import Verse.Numeric.Rounding

/-!
# Offsets that are zero

Rounding goes away from zero, so that no number but zero itself is rounded to zero, and an offset
is held within bounds on either side of zero.  What is left is NaN, which gives no offset at all
and is not equal to zero.

* `beq_zero_iff`         what is equal to zero, read off the bits
* `offset_eq_zero_iff`   an offset is zero for NaN and for zero
* `reverse_eq_zero_iff`  reversing an offset keeps it from being zero
-/

namespace Verse.Numeric

open Float.Model UnpackedFloat

/-! ## What is equal to zero -/

/-- The exponent of a double is above its 52 lower bits, and has eleven bits. -/
theorem toNat_unpackExponent (v : Float) :
    (@unpackExponent .binary64 v.toBits.toBitVec).toNat =
      v.toBits.toNat / leadingBit % 2048 := by
  rw [unpackExponent_def, BitVec.extractLsb'_toNat, Nat.shiftRight_eq_div_pow]
  rfl

/-- The fraction of a double are its 52 lower bits. -/
theorem toNat_unpackMantissa (v : Float) :
    (@unpackMantissa .binary64 v.toBits.toBitVec).toNat =
      v.toBits.toNat % leadingBit := by
  rw [unpackMantissa_def, BitVec.extractLsb'_toNat, Nat.shiftRight_zero]
  rfl

/-- A zero has neither an exponent nor a fraction. -/
theorem unpack_eq_zero_iff (v : Float) :
    (∃ sign, v.toModel.unpack = .zero sign) ↔
      v.toBits.toNat / leadingBit % 2048 = 0 ∧ v.toBits.toNat % leadingBit = 0 := by
  have hexponent : @unpackExponent .binary64 v.toBits.toBitVec = 0#11 ↔
      v.toBits.toNat / leadingBit % 2048 = 0 := by
    rw [← BitVec.toNat_inj, toNat_unpackExponent]
    rfl
  have hmantissa : @unpackMantissa .binary64 v.toBits.toBitVec = 0#52 ↔
      v.toBits.toNat % leadingBit = 0 := by
    rw [← BitVec.toNat_inj, toNat_unpackMantissa]
    rfl
  rw [← hexponent, ← hmantissa]
  show (∃ sign, UnpackedFloat.unpack .binary64 v.toBits.toBitVec = .zero sign) ↔ _
  rw [UnpackedFloat.unpack]
  dsimp only
  split
  case isTrue hmax =>
    -- The greatest exponent is that of infinities and NaN.
    have hne : ¬ @unpackExponent .binary64 v.toBits.toBitVec = 0#11 := by
      rw [hmax]
      decide
    split <;> simp [hne]
  case isFalse hmax =>
    split
    case isTrue hzero =>
      split
      case isTrue hm => exact ⟨fun _ => ⟨hzero, hm⟩, fun _ => ⟨_, rfl⟩⟩
      case isFalse hm => simp [hm]
    case isFalse hzero => simp [hzero]

/-- A comparison with zero asks for a zero of either sign. -/
theorem beq_zero_iff_unpack (v : Float) :
    (v == 0.0) = true ↔ ∃ sign, v.toModel.unpack = .zero sign := by
  -- The zero that is compared with is a positive one, but the sign does not matter.
  have hzero : (0.0 : Float).toModel.unpack = .zero .positive := by rfl
  show UnpackedFloat.beq v.toModel.unpack (0.0 : Float).toModel.unpack = true ↔ _
  rw [hzero]
  cases v.toModel.unpack with
  | zero sign => exact ⟨fun _ => ⟨sign, rfl⟩, fun _ => rfl⟩
  | notANumber => exact ⟨nofun, nofun⟩
  | infinity sign | finite sign _ _ _ => cases sign <;> exact ⟨nofun, nofun⟩

/-- What is equal to zero has no mantissa. -/
theorem beq_zero_iff (v : Float) :
    (v == 0.0) = true ↔ ∃ negative exponent, decode v = .finite negative 0 exponent := by
  rw [beq_zero_iff_unpack, unpack_eq_zero_iff]
  simp only [decode]
  split
  case isTrue hmax =>
    rw [hmax]
    split <;> simp
  case isFalse hmax =>
    split
    case isTrue hzero => simp [hzero]
    case isFalse hzero =>
      -- The leading bit is part of the mantissa.
      have hne : leadingBit ≠ 0 := by decide
      simp [hzero, hne]

/-! ## What is rounded to zero -/

/-- Only a zero is rounded to zero. -/
theorem ceiling_eq_zero_iff (mantissa : Nat) (exponent : Int) :
    ceiling mantissa exponent = 0 ↔ mantissa = 0 := by
  -- The number is rounded up, so only a numerator that is zero gives zero.
  have hden := fractionOf_den_pos mantissa exponent
  have hnum : (fractionOf mantissa exponent).1 = 0 ↔ mantissa = 0 := by
    rw [fractionOf, Nat.shiftLeft_eq]
    simp
  rw [ceiling, ← hnum]
  dsimp only
  rw [Nat.div_eq_zero_iff]
  omega

/-- The bounds are on either side of zero, so nothing but zero is held at zero. -/
theorem saturate_eq_zero_iff (k : Int) : saturate k = 0 ↔ k = 0 := by
  simp only [saturate, maxOffset, minOffset]
  omega

/-- Only zero is zero in the other direction as well. -/
theorem reverse_eq_zero_iff (k : Int) : reverse k = 0 ↔ k = 0 := by
  rw [reverse, saturate_eq_zero_iff, neg_eq_zero]

/-- Only zero is zero with either sign. -/
theorem signed_eq_zero_iff (negative : Bool) (n : Nat) : signed negative n = 0 ↔ n = 0 := by
  cases negative <;> simp [signed]

/-- An offset is zero for NaN and for the zeros, and for nothing else. -/
theorem offset_eq_zero_iff (v : Float) :
    offset v = 0 ↔ decode v = .nan ∨ (v == 0.0) = true := by
  rw [beq_zero_iff, offset]
  cases hv : decode v with
  | nan => simp
  -- An infinity has an offset at one of the bounds, and neither of them is zero.
  | infinite negative => cases negative <;> simp [maxOffset, minOffset]
  | finite negative mantissa exponent =>
    simp [saturate_eq_zero_iff, signed_eq_zero_iff, ceiling_eq_zero_iff]

end Verse.Numeric
