import Mathlib
import Verse.Proofs.Numeric.Offset
import Verse.Proofs.Numeric.Whole

/-!
# The numbers that doubles stand for

A finite double stands for exactly one rational number, and its mantissa and its exponent are told
by that number.  What is read off the bits of a double is the same as what its operations unpack
them to, so that whatever is shown of the number holds of the double.

* `decode_eq_ofUnpacked`   the fields are what the double is unpacked to
* `rational?`              the number that a finite double stands for
* `beq_iff_dyadic_eq`      equal doubles are equal numbers
* `signed_ceiling`         a number is rounded away from zero
* `decode_ofWhole`         the double of a whole number stands for that number
-/

namespace Verse.Numeric

open Float.Model UnpackedFloat

/-- What an unpacked double stands for. -/
def Binary.ofUnpacked : UnpackedFloat → Binary
  | .notANumber => .nan
  | .infinity sign => .infinite (sign == .negative)
  | .zero sign => .finite (sign == .negative) 0 (-1074)
  | .finite sign mantissa exponent _ => .finite (sign == .negative) mantissa exponent

/-- The sign is the highest bit. -/
theorem unpackSign_beq_negative (v : Float) :
    (Sign.ofBitVec (@unpackSign .binary64 v.toBits.toBitVec) == .negative) =
      v.toBits.toNat.testBit 63 := by
  -- The field of the sign has one bit, and so one of two values.
  have hbit : (@unpackSign .binary64 v.toBits.toBitVec).toNat =
      (v.toBits.toNat.testBit 63).toNat := by
    rw [unpackSign_def, BitVec.extractLsb'_toNat, Nat.testBit_eq_decide_div_mod_eq,
      Nat.shiftRight_eq_div_pow]
    show v.toBits.toNat / 2 ^ 63 % 2 = _
    obtain h | h := Nat.mod_two_eq_zero_or_one (v.toBits.toNat / 2 ^ 63) <;> rw [h] <;> rfl
  cases h : v.toBits.toNat.testBit 63 <;> rw [h] at hbit
  · rw [show @unpackSign .binary64 v.toBits.toBitVec = 0#1 from BitVec.eq_of_toNat_eq hbit]
    rfl
  · rw [show @unpackSign .binary64 v.toBits.toBitVec = 1#1 from BitVec.eq_of_toNat_eq hbit]
    rfl

/-- The leading bit stands in front of the 52 bits of the fraction. -/
theorem toNat_leadingBit_append {fraction : BitVec 52} :
    (1#1 ++ fraction).toNat = leadingBit + fraction.toNat := by
  rw [BitVec.toNat_append, ← Nat.shiftLeft_add_eq_or_of_lt fraction.isLt]
  rfl

/-- Reading the fields off the bits is unpacking. -/
theorem decode_eq_ofUnpacked (v : Float) : decode v = .ofUnpacked v.toModel.unpack := by
  have hexponent := toNat_unpackExponent v
  have hfraction := toNat_unpackMantissa v
  -- The greatest exponent, the least one and the fraction zero tell the kinds of doubles apart.
  have hmax : @unpackExponent .binary64 v.toBits.toBitVec = -1#11 ↔
      v.toBits.toNat / leadingBit % 2048 = 2047 := by
    rw [← hexponent, ← BitVec.toNat_inj]
    rfl
  have hmin : @unpackExponent .binary64 v.toBits.toBitVec = 0#11 ↔
      v.toBits.toNat / leadingBit % 2048 = 0 := by
    rw [← hexponent, ← BitVec.toNat_inj]
    rfl
  have hzero : @unpackMantissa .binary64 v.toBits.toBitVec = 0#52 ↔
      v.toBits.toNat % leadingBit = 0 := by
    rw [← hfraction, ← BitVec.toNat_inj]
    rfl
  show decode v = .ofUnpacked (UnpackedFloat.unpack .binary64 v.toBits.toBitVec)
  -- From here on both sides ask the same questions.
  rw [UnpackedFloat.unpack]
  simp only [decode, ← unpackSign_beq_negative, ← hmax, ← hmin, ← hzero]
  split
  · split <;> rfl
  · split
    case isTrue hsubnormal =>
      split
      case isTrue h => rw [hzero.mp h]; rfl
      case isFalse h =>
        rw [← hfraction, hsubnormal]
        rfl
    case isFalse =>
      rw [← hfraction, ← hexponent, ← toNat_leadingBit_append]
      rfl

/-- What a double is unpacked to are its fields. -/
theorem decode_of_unpack {v : Float} {sign : Sign} {mantissa : Nat} {exponent : Int}
    {h : 0 < mantissa} (hv : v.toModel.unpack = .finite sign mantissa exponent h) :
    decode v = .finite (sign == .negative) mantissa exponent := by
  rw [decode_eq_ofUnpacked, hv]
  rfl

/-- A double whose mantissa is not zero is unpacked to its fields. -/
theorem exists_unpack_of_decode {v : Float} {negative : Bool} {mantissa : Nat} {exponent : Int}
    (hv : decode v = .finite negative mantissa exponent) (h : 0 < mantissa) :
    ∃ sign, (sign == Sign.negative) = negative ∧
      v.toModel.unpack = .finite sign mantissa exponent h := by
  rw [decode_eq_ofUnpacked] at hv
  cases hu : v.toModel.unpack with
  | finite sign m e hm =>
    rw [hu] at hv
    simp only [Binary.ofUnpacked, Binary.finite.injEq] at hv
    obtain ⟨rfl, rfl, rfl⟩ := hv
    exact ⟨sign, rfl, rfl⟩
  | zero sign =>
    rw [hu] at hv
    simp only [Binary.ofUnpacked, Binary.finite.injEq] at hv
    omega
  | infinity sign | notANumber =>
    rw [hu] at hv
    cases hv

/-- The mantissa of a finite double has 53 bits, unless the exponent is the least one. -/
theorem decode_bounds {v : Float} {negative : Bool} {mantissa : Nat} {exponent : Int}
    (hv : decode v = .finite negative mantissa exponent) :
    mantissa < 2 * leadingBit ∧ -1074 ≤ exponent ∧ exponent ≤ 971 ∧
      (leadingBit ≤ mantissa ∨ exponent = -1074) := by
  -- The fields are as wide as this.
  have hfraction : v.toBits.toNat % leadingBit < leadingBit := Nat.mod_lt _ (by decide)
  have hexponent : v.toBits.toNat / leadingBit % 2048 < 2048 := Nat.mod_lt _ (by decide)
  simp only [decode] at hv
  split at hv
  · split at hv <;> cases hv
  · split at hv <;> simp only [Binary.finite.injEq] at hv <;> omega

/-! ## Exact values -/

/-- The number `± mantissa · 2 ^ exponent`. -/
def dyadic (negative : Bool) (mantissa : Nat) (exponent : Int) : ℚ :=
  signed negative mantissa * 2 ^ exponent

/-- The number that a double stands for, if it is finite. -/
def rational? (v : Float) : Option ℚ :=
  match decode v with
  | .finite negative mantissa exponent => some (dyadic negative mantissa exponent)
  | _ => none

/-- Only a finite double stands for a number. -/
theorem rational?_eq_some_iff {v : Float} {q : ℚ} : rational? v = some q ↔
    ∃ negative mantissa exponent, decode v = .finite negative mantissa exponent ∧
      q = dyadic negative mantissa exponent := by
  rw [rational?]
  cases decode v with
  | nan | infinite => simp
  | finite negative mantissa exponent => simp [eq_comm]

/-- The sign of a number stands in front of its magnitude. -/
theorem dyadic_eq_ite (negative : Bool) (mantissa : Nat) (exponent : Int) :
    dyadic negative mantissa exponent =
      if negative then -(mantissa * 2 ^ exponent : ℚ) else mantissa * 2 ^ exponent := by
  cases negative <;> simp [dyadic, signed]

/-- A number is zero just if its mantissa is. -/
theorem dyadic_eq_zero_iff {negative : Bool} {mantissa : Nat} {exponent : Int} :
    dyadic negative mantissa exponent = 0 ↔ mantissa = 0 := by
  have hpow : (2 : ℚ) ^ exponent ≠ 0 := zpow_ne_zero _ two_ne_zero
  rw [dyadic, mul_eq_zero_iff_right hpow, Int.cast_eq_zero, signed_eq_zero_iff]

/-- The magnitude of a number is its mantissa times the power. -/
theorem abs_dyadic (negative : Bool) (mantissa : Nat) (exponent : Int) :
    |dyadic negative mantissa exponent| = mantissa * 2 ^ exponent := by
  have hpow : (0 : ℚ) < 2 ^ exponent := zpow_pos two_pos _
  rw [dyadic, abs_mul, abs_of_pos hpow]
  cases negative <;> simp [signed]

/-- A number that is not zero is negative just if its sign is. -/
theorem dyadic_neg_iff {negative : Bool} {mantissa : Nat} {exponent : Int} (h : 0 < mantissa) :
    dyadic negative mantissa exponent < 0 ↔ negative = true := by
  have hpow : (0 : ℚ) < 2 ^ exponent := zpow_pos two_pos _
  have hm : (0 : ℚ) < mantissa * 2 ^ exponent := mul_pos (Nat.cast_pos.mpr h) hpow
  cases negative with
  | false => simp [dyadic, signed, hm.le]
  | true => simp [dyadic, signed, hm]

/-- Both zeros are the number zero. -/
theorem beq_zero_iff_of_rational? {v : Float} {q : ℚ} (h : rational? v = some q) :
    (v == 0.0) = true ↔ q = 0 := by
  obtain ⟨negative, mantissa, exponent, hv, rfl⟩ := rational?_eq_some_iff.mp h
  rw [beq_zero_iff, hv, dyadic_eq_zero_iff]
  simp

/-- The numerator over the denominator. -/
theorem fractionOf_eq (mantissa : Nat) (exponent : Int) :
    ((fractionOf mantissa exponent).1 : ℚ) / (fractionOf mantissa exponent).2 =
      mantissa * 2 ^ exponent := by
  -- One of the two shifts is by nothing, and the other one is the power or one over it.
  simp only [fractionOf, Nat.shiftLeft_eq, Nat.cast_mul, Nat.cast_pow, Nat.cast_ofNat,
    one_mul]
  rw [mul_div_assoc, ← zpow_natCast, ← zpow_natCast, ← zpow_sub₀ two_ne_zero]
  congr 2
  omega

/-! ## Rounding away from zero -/

/-- The whole number that is not nearer to zero. -/
def away (q : ℚ) : ℤ :=
  if q < 0 then ⌊q⌋ else ⌈q⌉

/-- The quotient that is taken with the rest of the denominator is the number, rounded up. -/
theorem natCast_ceiling (mantissa : Nat) (exponent : Int) :
    (ceiling mantissa exponent : ℤ) = ⌈(mantissa * 2 ^ exponent : ℚ)⌉ := by
  have hden := fractionOf_den_pos mantissa exponent
  rw [← fractionOf_eq, ceiling]
  -- Which fraction it is does not matter, as long as its denominator is positive.
  generalize fractionOf mantissa exponent = fraction at hden
  obtain ⟨num, den⟩ := fraction
  simp only at hden ⊢
  have hpos : (0 : ℚ) < den := Nat.cast_pos.mpr hden
  have hdiv := Nat.div_add_mod (num + den - 1) den
  have hmod := Nat.mod_lt (num + den - 1) hden
  symm
  rw [Int.ceil_eq_iff, lt_div_iff₀ hpos, div_le_iff₀ hpos]
  generalize (num + den - 1) / den = n at hdiv ⊢
  -- The quotient is less than one above the fraction, and it is not below it.
  constructor
  · have : n * den < num + den := by
      rw [Nat.mul_comm]
      omega
    have : ((n * den : ℕ) : ℚ) < ((num + den : ℕ) : ℚ) := Nat.cast_lt.mpr this
    push_cast at this ⊢
    linarith
  · have : num ≤ n * den := by
      rw [Nat.mul_comm]
      omega
    exact_mod_cast this

/-- The magnitude of a double is rounded up. -/
theorem signed_ceiling (negative : Bool) (mantissa : Nat) (exponent : Int) :
    signed negative (ceiling mantissa exponent) = away (dyadic negative mantissa exponent) := by
  -- Zero has no sign, but is rounded to itself.
  by_cases h : mantissa = 0
  · rw [dyadic_eq_zero_iff.mpr h, (ceiling_eq_zero_iff mantissa exponent).mpr h]
    cases negative <;> simp [signed, away]
  · have hneg : dyadic negative mantissa exponent < 0 ↔ negative = true :=
      dyadic_neg_iff (Nat.pos_of_ne_zero h)
    cases negative with
    | false =>
      rw [away, if_neg (by rw [hneg]; simp), signed, if_neg (by simp), natCast_ceiling]
      simp [dyadic, signed]
    | true =>
      rw [away, if_pos (hneg.mpr rfl), signed, if_pos rfl, natCast_ceiling, ← Int.floor_neg]
      simp [dyadic, signed]

/-- With no bits behind the point, there is nothing to round. -/
theorem natCast_ceiling_of_nonneg (mantissa : Nat) {exponent : Int} (h : 0 ≤ exponent) :
    (ceiling mantissa exponent : ℚ) = mantissa * 2 ^ exponent := by
  obtain ⟨n, rfl⟩ := Int.eq_ofNat_of_zero_le h
  have hwhole : (mantissa * 2 ^ (n : ℤ) : ℚ) = ((mantissa * 2 ^ n : ℕ) : ℤ) := by
    push_cast
    rw [zpow_natCast]
  have hceil := natCast_ceiling mantissa n
  rw [hwhole, Int.ceil_intCast] at hceil
  rw [hwhole, ← hceil, Int.cast_natCast]

/-- A double that has bits behind the point is rounded to a number that doubles have. -/
theorem ceiling_le_of_neg {v : Float} {negative : Bool} {mantissa : Nat} {exponent : Int}
    (hv : decode v = .finite negative mantissa exponent) (h : exponent < 0) :
    ceiling mantissa exponent ≤ 2 ^ 52 := by
  -- Behind the point is one bit at least, so that 52 are left before it.
  have hlt := (decode_bounds hv).1
  have hpow : (2 : ℚ) ^ exponent ≤ 2 ^ (-1 : ℤ) := zpow_le_zpow_right₀ one_le_two (by omega)
  have hle : (mantissa * 2 ^ exponent : ℚ) ≤ ((2 ^ 52 : ℕ) : ℤ) := by
    have hcast : (mantissa : ℚ) ≤ 2 ^ 53 := by exact_mod_cast hlt.le
    calc (mantissa * 2 ^ exponent : ℚ) ≤ 2 ^ 53 * 2 ^ (-1 : ℤ) :=
          mul_le_mul hcast hpow (zpow_pos two_pos _).le (by positivity)
      _ = ((2 ^ 52 : ℕ) : ℤ) := by norm_num
  have hceil := Int.ceil_le.mpr hle
  rw [← natCast_ceiling] at hceil
  exact_mod_cast hceil

/-- From `2 ^ 53` on, every double is an even number. -/
theorem exists_exponent_of_le {v : Float} {negative : Bool} {mantissa : Nat} {exponent : Int}
    (hv : decode v = .finite negative mantissa exponent)
    (h : (2 ^ 53 : ℚ) ≤ mantissa * 2 ^ exponent) :
    ∃ n : ℕ, exponent = n ∧ 0 < n ∧ 2 ^ 52 ≤ mantissa := by
  -- A mantissa has no more than 53 bits, so the exponent is what makes the number so great.
  obtain ⟨hbits, -, -, hnormal⟩ := decode_bounds hv
  have hlt : mantissa < 2 ^ 53 := hbits
  have hcast : (mantissa : ℚ) < 2 ^ 53 := by exact_mod_cast hlt
  have he : 0 < exponent := by
    by_contra hle
    have hpow : (2 : ℚ) ^ exponent ≤ 2 ^ (0 : ℤ) := zpow_le_zpow_right₀ one_le_two (by omega)
    have hbound : (mantissa * 2 ^ exponent : ℚ) ≤ mantissa * 2 ^ (0 : ℤ) :=
      mul_le_mul_of_nonneg_left hpow (Nat.cast_nonneg mantissa)
    rw [zpow_zero, mul_one] at hbound
    linarith
  obtain ⟨n, rfl⟩ := Int.eq_ofNat_of_zero_le he.le
  exact ⟨n, rfl, by omega, hnormal.resolve_right (by omega)⟩

/-! ## Comparisons -/

section

variable {v w : Float} {s t : Bool} {m n : Nat} {e f : Int}

/-- A number is below zero just if its sign is negative. -/
theorem lt_zero_iff (hv : decode v = .finite s m e) (hm : 0 < m) : v < 0.0 ↔ s = true := by
  obtain ⟨sign, rfl, hu⟩ := exists_unpack_of_decode hv hm
  have hzero : (0.0 : Float).toModel.unpack = .zero .positive := by rfl
  show decide (UnpackedFloat.lt v.toModel.unpack (0.0 : Float).toModel.unpack = true) = true ↔ _
  rw [decide_eq_true_iff, hu, hzero]
  cases sign <;> simp [UnpackedFloat.lt, UnpackedFloat.compare]

variable (hv : decode v = .finite s m e) (hw : decode w = .finite t n f)
include hv hw

/-- Of two doubles, the one with the greater exponent is the greater one. -/
theorem mul_zpow_lt (h : e < f) : (m * 2 ^ e : ℚ) < n * 2 ^ f := by
  obtain ⟨hm, hlow, -⟩ := decode_bounds hv
  -- The greater exponent is not the least one, so that its mantissa has all 53 bits.
  obtain ⟨-, -, -, hn⟩ := decode_bounds hw
  have hn' : leadingBit ≤ n := hn.resolve_right (by omega)
  have hpow : (2 : ℚ) ^ (e + 1) ≤ 2 ^ f := zpow_le_zpow_right₀ one_le_two (by omega)
  have hpos : (0 : ℚ) < 2 ^ e := zpow_pos two_pos e
  calc (m * 2 ^ e : ℚ) < (2 * leadingBit : ℕ) * 2 ^ e :=
        mul_lt_mul_of_pos_right (Nat.cast_lt.mpr hm) hpos
    _ = leadingBit * 2 ^ (e + 1) := by
        rw [zpow_add_one₀ two_ne_zero]
        push_cast
        ring
    _ ≤ n * 2 ^ f := mul_le_mul (Nat.cast_le.mpr hn') hpow (zpow_pos two_pos _).le (Nat.cast_nonneg n)

/-- A number has just one mantissa and one exponent. -/
theorem eq_of_dyadic_eq (hm : 0 < m) (h : dyadic s m e = dyadic t n f) : s = t ∧ m = n ∧ e = f := by
  have habs : (m * 2 ^ e : ℚ) = n * 2 ^ f := by
    rw [← abs_dyadic s, ← abs_dyadic t, h]
  -- Different exponents make the numbers different.
  obtain hlt | heq | hlt := lt_trichotomy e f
  · exact absurd habs (mul_zpow_lt hv hw hlt).ne
  · subst heq
    have hpow : (2 : ℚ) ^ e ≠ 0 := zpow_ne_zero _ two_ne_zero
    have hmn : m = n := by exact_mod_cast mul_right_cancel₀ hpow habs
    subst hmn
    have hsign : s = true ↔ t = true := by
      rw [← dyadic_neg_iff hm, h, dyadic_neg_iff hm]
    exact ⟨Bool.eq_iff_iff.mpr hsign, rfl, rfl⟩
  · exact absurd habs (mul_zpow_lt hw hv hlt).ne'

/-- Doubles are compared as the numbers that they stand for. -/
theorem beq_iff_dyadic_eq (hm : 0 < m) (hn : 0 < n) :
    (v == w) = true ↔ dyadic s m e = dyadic t n f := by
  have heq : dyadic s m e = dyadic t n f ↔ s = t ∧ m = n ∧ e = f := by
    constructor
    · exact eq_of_dyadic_eq hv hw hm
    · rintro ⟨rfl, rfl, rfl⟩
      rfl
  rw [heq]
  obtain ⟨s, rfl, hv'⟩ := exists_unpack_of_decode hv hm
  -- Two unpacked doubles are compared field by field.
  obtain ⟨t, rfl, hw'⟩ := exists_unpack_of_decode hw hn
  show UnpackedFloat.beq v.toModel.unpack w.toModel.unpack = true ↔ _
  rw [hv', hw']
  cases s <;> cases t <;> simp [UnpackedFloat.beq, UnpackedFloat.compare, and_comm]

end

/-! ## Whole numbers -/

/-- A whole number with a sign is its double with that sign. -/
theorem decode_ofWhole_of_unpack (negative : Bool) {n mantissa : Nat} {exponent : Int}
    {h : 0 < mantissa} (hn : (Float.ofNat n).toModel.unpack = .finite .positive mantissa exponent h)
    (hm : mantissa.log2 = 52) (hlow : -1074 ≤ exponent) (hhigh : exponent ≤ 971) :
    decode (ofWhole negative n) = .finite negative mantissa exponent := by
  cases negative with
  | false => exact decode_of_unpack hn
  | true =>
    -- Only the sign is turned, and so the double is packed as before.
    have hneg : (-Float.ofNat n).toModel.unpack = .finite .negative mantissa exponent h := by
      show UnpackedFloat.unpack .binary64
        (UnpackedFloat.pack .binary64 (Float.ofNat n).toModel.unpack.neg) = _
      rw [hn]
      exact unpack_pack_finite h hm hlow hhigh
    exact decode_of_unpack hneg

/-- The double of a whole number with a sign has all 53 bits of the number. -/
theorem decode_ofWhole (negative : Bool) {n : Nat} (hpos : 0 < n) (hlt : n < 2 ^ 53) :
    decode (ofWhole negative n) = .finite negative (n * 2 ^ (52 - n.log2)) (n.log2 - 52) := by
  have hlog : n.log2 < 53 := (Nat.log2_lt (by omega)).mpr hlt
  have hnormal : 0 < n * 2 ^ (52 - n.log2) := Nat.mul_pos hpos (Nat.two_pow_pos _)
  exact decode_ofWhole_of_unpack negative (unpack_ofNat hpos hlt hnormal) (log2_normal hpos hlt)
    (by omega) (by omega)

/-- The zeros that are put behind a whole number are taken back by the exponent. -/
theorem dyadic_normal (negative : Bool) {n : Nat} (hpos : 0 < n) (hlt : n < 2 ^ 53) :
    dyadic negative (n * 2 ^ (52 - n.log2)) (n.log2 - 52) = signed negative n := by
  have hlog : n.log2 < 53 := (Nat.log2_lt (by omega)).mpr hlt
  have hexponent : ((52 - n.log2 : ℕ) : ℤ) + (n.log2 - 52) = 0 := by omega
  -- The two powers are one over the other.
  have hpow : (2 ^ (52 - n.log2) : ℚ) * 2 ^ ((n.log2 : ℤ) - 52) = 1 := by
    rw [← zpow_natCast, ← zpow_add₀ two_ne_zero, hexponent, zpow_zero]
  cases negative <;> simp [dyadic, signed, mul_assoc, hpow]

/-- A number is rounded to itself just when it is whole. -/
theorem roundAway_beq_iff {v : Float} {negative : Bool} {mantissa : Nat} {exponent : Int}
    (hv : decode v = .finite negative mantissa exponent) (hm : 0 < mantissa) :
    (roundAway v == v) = true ↔ (ceiling mantissa exponent : ℚ) = mantissa * 2 ^ exponent := by
  by_cases he : exponent < 0
  · have hround : roundAway v = ofWhole negative (ceiling mantissa exponent) := by
      simp only [roundAway, hv, if_pos he]
    -- What the number is rounded to has few enough bits for a double of its own.
    have hle := ceiling_le_of_neg hv he
    have hpos : 0 < ceiling mantissa exponent :=
      Nat.pos_of_ne_zero ((ceiling_eq_zero_iff _ _).not.mpr hm.ne')
    have hlt : ceiling mantissa exponent < 2 ^ 53 := by omega
    rw [hround, beq_iff_dyadic_eq (decode_ofWhole negative hpos hlt) hv
      (Nat.mul_pos hpos (Nat.two_pow_pos _)) hm, dyadic_normal negative hpos hlt]
    cases negative <;> simp [dyadic, signed]
  · have hround : roundAway v = v := by simp only [roundAway, hv, if_neg he]
    rw [hround, beq_iff_dyadic_eq hv hv hm hm]
    simp [natCast_ceiling_of_nonneg mantissa (not_lt.mp he)]

end Verse.Numeric
