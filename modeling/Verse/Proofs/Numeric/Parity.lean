import Verse.Proofs.Numeric.Nearest
import Verse.Proofs.Numeric.Value

/-!
# Odd and even numbers

The parity of a number is told by the number that it is rounded to, and also by its offset: where an
offset is held back there are only even numbers, and the offsets of all others are the numbers
themselves.  An infinity is the exception.  It counts as odd, but the offset that stands for it is
taken for an even one.

* `even_ceiling_of_le`          from `2 ^ 53` on every double is even
* `isOdd_iff_odd_away`          what it is to be odd, told by the number
* `isOddOffset_offset_finite`   the offset of a finite double has its parity
* `isOdd_ofWhole_offset`        the double of an offset has the parity of the offset
-/

namespace Verse.Numeric

open Float.Model UnpackedFloat

variable {v : Float} {negative : Bool} {mantissa : Nat} {exponent : Int}

/-- A sign does not change whether a number is odd. -/
theorem odd_signed_iff (negative : Bool) (n : Nat) : Odd (signed negative n) ↔ n % 2 = 1 := by
  rw [Int.odd_iff]
  cases negative <;> simp only [signed, if_true, Bool.false_eq_true, if_false] <;> omega

/-- A finite double is odd just when the number that it is rounded to is. -/
theorem isOdd_iff_odd_away {q : ℚ} (hq : rational? v = some q) : isOdd v = true ↔ Odd (away q) := by
  obtain ⟨negative, mantissa, exponent, hv, rfl⟩ := rational?_eq_some_iff.mp hq
  rw [isOdd, hv, ← signed_ceiling, odd_signed_iff]
  exact beq_iff_eq

section

variable (hv : decode v = .finite negative mantissa exponent)
include hv

/-- From `2 ^ 53` on, the bits of a mantissa are followed by zeros. -/
theorem exists_ceiling_eq_mul_pow (h : 2 ^ 53 ≤ ceiling mantissa exponent) :
    ∃ k, ceiling mantissa exponent = mantissa * 2 ^ k ∧ 0 < k ∧ k ≤ 971 ∧ mantissa.log2 = 52 := by
  -- Behind the point a mantissa has no room for so great a number.
  have he : 0 ≤ exponent := by
    by_contra hneg
    have := ceiling_le_of_neg hv (not_le.mp hneg)
    omega
  have hwhole := natCast_ceiling_of_nonneg mantissa he
  have hle : (2 ^ 53 : ℚ) ≤ mantissa * 2 ^ exponent := by
    rw [← hwhole]
    exact_mod_cast h
  obtain ⟨k, rfl, hk, hlow⟩ := exists_exponent_of_le hv hle
  obtain ⟨hhigh, -, hmax, -⟩ := decode_bounds hv
  rw [zpow_natCast] at hwhole
  have hlog : mantissa.log2 = 52 := (Nat.log2_eq_iff (by omega)).mpr ⟨hlow, hhigh⟩
  exact ⟨k, by exact_mod_cast hwhole, hk, by omega, hlog⟩

/-- From `2 ^ 53` on, the number that a double is rounded to is even. -/
theorem even_ceiling_of_le (h : 2 ^ 53 ≤ ceiling mantissa exponent) :
    2 ∣ ceiling mantissa exponent := by
  obtain ⟨k, hceiling, hk, -⟩ := exists_ceiling_eq_mul_pow hv h
  rw [hceiling]
  exact dvd_mul_of_dvd_right (dvd_pow_self 2 hk.ne') mantissa

/-- The offset of a finite double has its parity. -/
theorem isOddOffset_offset_finite : isOddOffset (offset v) = isOdd v := by
  have heven := even_ceiling_of_le hv
  simp only [isOddOffset, offset, isOdd, hv]
  -- Below the bounds the offset is the number, and beyond them the number is even.
  generalize ceiling mantissa exponent = n at heven
  cases negative <;> simp only [signed, saturate, maxOffset, minOffset, if_true, Bool.false_eq_true,
    if_false] <;> rw [Bool.eq_iff_iff] <;> simp only [Bool.and_eq_true, bne_iff_ne, beq_iff_eq] <;>
    omega

end

/-- The offset that stands for an infinity is taken for an even one. -/
theorem isOddOffset_offset_infinite (hv : decode v = .infinite negative) :
    isOddOffset (offset v) = false := by
  rw [offset, hv]
  cases negative <;> rfl

/-! ## Offsets as doubles -/

/-- A whole number that has more than 53 bits, but zeros at its end. -/
theorem unpack_ofNat_mul_pow {k : Nat} (h : 0 < mantissa) (hm : mantissa.log2 = 52) (hk : 0 < k)
    (hmax : k ≤ 971) :
    (Float.ofNat (mantissa * 2 ^ k)).toModel.unpack = .finite .positive mantissa k h := by
  have hlow : 2 ^ 52 ≤ mantissa := (Nat.le_log2 h.ne').mp hm.ge
  -- The number is too great for the quick way, which takes up to 53 bits.
  have hlarge : ¬ (mantissa * 2 ^ k < 2 ^ 53 ∧ 0 ≤ 22) := by
    have htwo : 2 ≤ 2 ^ k := Nat.le_self_pow hk.ne' 2
    have := Nat.mul_le_mul hlow htwo
    omega
  have hne : mantissa * 2 ^ k ≠ 0 := (Nat.mul_pos h (Nat.two_pow_pos k)).ne'
  have hscientific : UnpackedFloat.ofScientific .binary64 (mantissa * 2 ^ k) 0 =
      .finite .positive mantissa k h := by
    -- The general way multiplies with a power of ten that is one, and rounds a product that is
    -- exact.
    have hbits : ¬ (0 : ℤ) < -(2 ^ 11 + (mantissa * 2 ^ k).log2) := by omega
    have hshift : (mantissa * 2 ^ k) <<< 53 * 10 ^ (0 : ℤ).toNat = mantissa * 2 ^ (k + 53) := by
      rw [Nat.shiftLeft_eq, Int.toNat_zero, pow_zero, mul_one, mul_assoc, ← pow_add]
    rw [UnpackedFloat.ofScientific, dif_neg hne, if_neg (by decide), if_neg hbits,
      if_pos (le_refl 0), UnpackedFloat.mul]
    -- The product is the mantissa with zeros behind it, so that nothing is lost.
    have hexact : roundWithAccuracy .binary64 .positive (mantissa * 2 ^ (k + 53)) (-53) .exact =
        .finite .positive mantissa (-53 + (k + 53 : ℕ)) h :=
      roundWithAccuracy_exact .positive h hm (by omega)
    have hexponent : (-53 + (k + 53 : ℕ) : ℤ) = k := by omega
    have hpositive : Sign.positive * Sign.positive = .positive := rfl
    have hmantissaBits : Format.binary64.mantissaBits = 53 := rfl
    rw [hpositive, hmantissaBits, hshift, add_zero, show (-(53 : ℕ) : ℤ) = -53 by rfl, hexact]
    simp only [hexponent]
  show (Float.ofScientific (mantissa * 2 ^ k) false 0).toModel.unpack = _
  rw [Float.ofScientific, dif_neg hlarge]
  show UnpackedFloat.unpack .binary64 (UnpackedFloat.pack .binary64
    (UnpackedFloat.ofScientific .binary64 (mantissa * 2 ^ k) 0)) = _
  rw [hscientific]
  exact unpack_pack_finite h hm (by omega) (by omega)

/-- The double of a number below `2 ^ 53` is that number, and has its parity. -/
theorem isOdd_ofWhole_of_lt (negative : Bool) {n : Nat} (hlt : n < 2 ^ 53) :
    isOdd (ofWhole negative n) = decide (n % 2 = 1) := by
  -- Zero has a double with either sign.
  obtain rfl | hpos := n.eq_zero_or_pos
  · cases negative <;> decide +kernel
  have hq : rational? (ofWhole negative n) = some ((signed negative n : ℤ) : ℚ) := by
    rw [rational?, decode_ofWhole negative hpos hlt]
    simp only [dyadic_normal negative hpos hlt]
  have haway : away ((signed negative n : ℤ) : ℚ) = signed negative n := by simp [away]
  rw [Bool.eq_iff_iff, isOdd_iff_odd_away hq, haway, odd_signed_iff, decide_eq_true_iff]

/-- The double of a mantissa with zeros behind it is even. -/
theorem isOdd_ofWhole_mul_pow (negative : Bool) {k : Nat} (h : 0 < mantissa)
    (hm : mantissa.log2 = 52) (hk : 0 < k) (hmax : k ≤ 971) :
    isOdd (ofWhole negative (mantissa * 2 ^ k)) = false := by
  have hdecode : decode (ofWhole negative (mantissa * 2 ^ k)) = .finite negative mantissa k :=
    decode_ofWhole_of_unpack negative (unpack_ofNat_mul_pow h hm hk hmax) hm (by omega) (by omega)
  have hceiling : ceiling mantissa k = mantissa * 2 ^ k := by
    have hwhole := natCast_ceiling_of_nonneg mantissa (Int.natCast_nonneg k)
    rw [zpow_natCast] at hwhole
    exact_mod_cast hwhole
  have heven : 2 ∣ mantissa * 2 ^ k := dvd_mul_of_dvd_right (dvd_pow_self 2 hk.ne') mantissa
  simp only [isOdd, hdecode, hceiling, beq_eq_false_iff_ne]
  omega

/-- The double of what a number is rounded to, with either sign. -/
theorem isOdd_ofWhole_ceiling (negative' : Bool)
    (hv : decode v = .finite negative mantissa exponent) :
    isOdd (ofWhole negative' (ceiling mantissa exponent)) =
      decide (ceiling mantissa exponent % 2 = 1) := by
  -- Below `2 ^ 53` the double is the number itself.
  obtain hlt | hle := Nat.lt_or_ge (ceiling mantissa exponent) (2 ^ 53)
  · exact isOdd_ofWhole_of_lt negative' hlt
  · have heven := even_ceiling_of_le hv hle
    have hnot : ¬ ceiling mantissa exponent % 2 = 1 := by omega
    obtain ⟨k, hceiling, hk, hmax, hlog⟩ := exists_ceiling_eq_mul_pow hv hle
    -- A mantissa of zero would not have its highest bit where it is.
    have hpos : 0 < mantissa := by
      apply Nat.pos_of_ne_zero
      rintro rfl
      exact absurd hlog (by decide)
    rw [decide_eq_false hnot, hceiling, isOdd_ofWhole_mul_pow negative' hpos hlog hk hmax]

/-- Between the bounds an offset is as great as its number. -/
theorem natAbs_saturate_signed (negative : Bool) {n : Nat} (h : n < 2 ^ 63) :
    (saturate (signed negative n)).natAbs = n := by
  cases negative <;>
    simp only [signed, saturate, maxOffset, minOffset, if_true, Bool.false_eq_true, if_false] <;>
    omega

/-- Beyond the bounds an offset is the bound on the side of its sign. -/
theorem saturate_signed_of_le (negative : Bool) {n : Nat} (h : 2 ^ 63 ≤ n) :
    saturate (signed negative n) = if negative then minOffset else maxOffset := by
  cases negative <;>
    simp only [signed, saturate, maxOffset, minOffset, if_true, Bool.false_eq_true, if_false] <;>
    omega

/-- The double of an offset has the parity of the offset. -/
theorem isOdd_ofWhole_offset (v : Float) :
    isOdd (ofWhole (decide (offset v < 0)) (offset v).natAbs) = isOddOffset (offset v) := by
  cases hv : decode v with
  | nan =>
    rw [offset, hv]
    decide +kernel
  | infinite negative =>
    rw [offset, hv]
    cases negative <;> decide +kernel
  | finite negative mantissa exponent =>
    -- The offset is that of the number that the double is rounded to.
    have hoffset : offset v = saturate (signed negative (ceiling mantissa exponent)) := by
      rw [offset, hv]
    have hodd : isOdd v = decide (ceiling mantissa exponent % 2 = 1) := by
      rw [isOdd, hv]
      rfl
    rw [isOddOffset_offset_finite hv, hodd, hoffset]
    obtain hlt | hge := Nat.lt_or_ge (ceiling mantissa exponent) (2 ^ 63)
    · rw [natAbs_saturate_signed negative hlt, isOdd_ofWhole_ceiling _ hv]
    · -- The bounds of the offsets: the upper one is rounded up to `2 ^ 63`.
      have heven := even_ceiling_of_le hv (by omega)
      have hnot : ¬ ceiling mantissa exponent % 2 = 1 := by omega
      rw [saturate_signed_of_le negative hge, decide_eq_false hnot]
      cases negative <;> decide +kernel

end Verse.Numeric
