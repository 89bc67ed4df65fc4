import Mathlib
import Verse.Numeric.Binary

/-!
# Whole numbers as doubles

A whole number below `2 ^ 53` has a mantissa of at most 53 bits, so the double made of it is
that number itself.

* `unpack_pack_finite`   a normal double is unpacked as it was packed
* `unpack_ofNat`         the double of a whole number, taken apart
* `ofNat_beq_zero`       only zero gives a zero
* `isWhole_ofNat`        the bits of the double stand for the whole number
-/

namespace Verse.Numeric

open Float.Model Float.Model.UnpackedFloat

/-! ## Packing and unpacking -/

/-- The sign is the last of the bits. -/
theorem unpackSign_pack {spec : Format} {sign : Sign} {exponent : BitVec spec.exponentBits}
    {mantissa : BitVec spec.mantissaBitsWithoutImplicit} :
    Sign.ofBitVec (unpackSign (packComponents spec sign exponent mantissa)) = sign := by
  have hsign : unpackSign (packComponents spec sign exponent mantissa) = sign.toBitVec := by
    ext i hi
    obtain rfl : i = 0 := by omega
    simp [unpackSign, packComponents, BitVec.getLsbD_append, BitVec.getElem_append]
  rw [hsign]
  cases sign <;> rfl

/-- The leading bit of a mantissa is put back in front of the bits that are stored. -/
theorem toNat_one_append {mantissa : Nat} (hm : mantissa.log2 = 52) :
    (1#1 ++ BitVec.ofNat 52 mantissa).toNat = mantissa := by
  -- Zero has no bit at all.
  have hne : mantissa ≠ 0 := by
    rintro rfl
    exact absurd hm (by decide)
  have hlow : 2 ^ 52 ≤ mantissa := (Nat.le_log2 hne).mp (by omega)
  have hhigh : mantissa < 2 ^ 53 := (Nat.log2_lt hne).mp (by omega)
  rw [BitVec.toNat_append, ← Nat.shiftLeft_add_eq_or_of_lt (BitVec.ofNat 52 mantissa).isLt,
    BitVec.toNat_ofNat, Nat.shiftLeft_eq]
  simp only [BitVec.toNat_ofNat]
  omega

/-- A normal double is packed without its leading bit. -/
theorem pack_finite {sign : Sign} {mantissa : Nat} {exponent : Int} (h : 0 < mantissa)
    (hm : mantissa.log2 = 52) (hlow : -1074 ≤ exponent) (hhigh : exponent ≤ 971) :
    UnpackedFloat.pack .binary64 (.finite sign mantissa exponent h) =
      packComponents .binary64 sign (BitVec.ofNat 11 (exponent + 1075).toNat)
        (BitVec.ofNat 52 mantissa) := by
  have hbias : (exponent + Format.binary64.exponentBias +
      Format.binary64.mantissaBitsWithoutImplicit).toNat = (exponent + 1075).toNat := by
    -- The bias of the exponents is 1023, and the fraction takes 52 places more.
    show (exponent + (1023 : Nat) + (52 : Nat)).toNat = _
    omega
  simp only [UnpackedFloat.pack, hbias, hm]
  -- The exponent is not too great for its field, and the leading bit is where it should be.
  rw [if_neg (by show ¬ 2 ^ 11 ≤ _; omega), if_pos (by rfl)]

/-- A normal double is unpacked as it was packed. -/
theorem unpack_pack_finite {sign : Sign} {mantissa : Nat} {exponent : Int} (h : 0 < mantissa)
    (hm : mantissa.log2 = 52) (hlow : -1074 ≤ exponent) (hhigh : exponent ≤ 971) :
    UnpackedFloat.unpack .binary64 (UnpackedFloat.pack .binary64 (.finite sign mantissa exponent h)) =
      .finite sign mantissa exponent h := by
  have htoNat : (BitVec.ofNat 11 (exponent + 1075).toNat).toNat = (exponent + 1075).toNat := by
    rw [BitVec.toNat_ofNat, Nat.mod_eq_of_lt (by omega)]
  -- The greatest and the least exponent are kept for what is not normal.
  have hmax : BitVec.ofNat 11 (exponent + 1075).toNat ≠ -1#11 := by
    intro heq
    have := htoNat.symm.trans (congrArg BitVec.toNat heq)
    rw [show (-1#11).toNat = 2047 from rfl] at this
    omega
  have hmin : BitVec.ofNat 11 (exponent + 1075).toNat ≠ 0#11 := by
    intro heq
    have := htoNat.symm.trans (congrArg BitVec.toNat heq)
    rw [show (0#11).toNat = 0 from rfl] at this
    omega
  rw [pack_finite h hm hlow hhigh, UnpackedFloat.unpack]
  simp only [unpackMantissa_packComponents, unpackExponent_packComponents, unpackSign_pack]
  rw [if_neg hmax, if_neg hmin]
  -- What was added to the exponent is taken off again.
  simp only [htoNat, toNat_one_append hm]
  congr 1
  show ((exponent + 1075).toNat : Int) - ((1023 : Nat) + (52 : Nat)) = exponent
  omega

/-- The bits of a positive double, its exponent before its mantissa. -/
theorem toNat_packComponents (exponent : BitVec 11) (mantissa : BitVec 52) :
    (packComponents .binary64 .positive exponent mantissa).toNat =
      exponent.toNat * leadingBit + mantissa.toNat := by
  show (0#1 ++ exponent ++ mantissa).toNat = _
  -- The sign of a positive double is a zero in front, which adds nothing.
  have hzero : (0#1 ++ exponent).toNat = exponent.toNat := by
    rw [BitVec.toNat_append]
    simp
  rw [BitVec.toNat_append, hzero, ← Nat.shiftLeft_add_eq_or_of_lt mantissa.isLt,
    Nat.shiftLeft_eq]
  rfl

/-! ## Rounding what needs no rounding -/

/-- Zeros behind a number are so many bits more. -/
theorem log2_mul_two_pow {n : Nat} (h : n ≠ 0) (k : Nat) : (n * 2 ^ k).log2 = n.log2 + k := by
  have hpow : 0 < 2 ^ k := Nat.two_pow_pos k
  rw [Nat.log2_eq_iff (Nat.mul_ne_zero h hpow.ne')]
  constructor
  · rw [Nat.pow_add]
    exact Nat.mul_le_mul_right _ (Nat.log2_self_le h)
  · rw [show n.log2 + k + 1 = (n.log2 + 1) + k by omega, Nat.pow_add]
    exact Nat.mul_lt_mul_of_pos_right Nat.lt_log2_self hpow

/-- Shifting out zeros loses nothing. -/
theorem shiftRight_mul_pow (mantissa k : Nat) :
    (⟨mantissa * 2 ^ k, false, false⟩ : ExtendedMantissa) >>> k = ⟨mantissa, false, false⟩ := by
  show Nat.repeat ExtendedMantissa.shiftRightOne k _ = _
  induction k generalizing mantissa with
  | zero => rw [Nat.pow_zero, Nat.mul_one]; rfl
  | succ k ih =>
    -- Each time the last zero is shifted out, and neither bit is set.
    rw [Nat.pow_succ', ← Nat.mul_assoc, Nat.repeat, ih]
    simp [ExtendedMantissa.shiftRightOne]

/-- A mantissa that has 53 bits but for zeros at its end is shifted to these 53 bits. -/
theorem shiftToTargetExponent_exact {mantissa k : Nat} {exponent : Int}
    (hm : mantissa.log2 = 52) (hlow : -1074 ≤ exponent + k) :
    shiftToTargetExponent .binary64 (mantissa * 2 ^ k) exponent .exact =
      (⟨mantissa, false, false⟩, exponent + k) := by
  have hne : mantissa ≠ 0 := by
    rintro rfl
    exact absurd hm (by decide)
  -- The mantissa with its zeros has `k` bits too many, and they are what is shifted out.
  have htarget : Format.binary64.targetExponent (totalExponent (mantissa * 2 ^ k) exponent) =
      exponent + k := by
    rw [totalExponent, log2_mul_two_pow hne, hm]
    show max (((52 + k : Nat) : Int) + 1 + exponent - 53) (-1074) = _
    omega
  rw [shiftToTargetExponent, htarget, shiftToExponent]
  have hamount : (exponent + k - exponent).toNat = k := by omega
  simp only [hamount, ExtendedMantissa.ofMantissaAndAccuracy, shiftRight_mul_pow]

/-- A number that fits into 53 bits is not changed by rounding. -/
theorem roundWithAccuracy_exact (sign : Sign) {mantissa k : Nat} {exponent : Int}
    (h : 0 < mantissa) (hm : mantissa.log2 = 52) (hlow : -1074 ≤ exponent + k) :
    roundWithAccuracy .binary64 sign (mantissa * 2 ^ k) exponent .exact =
      .finite sign mantissa (exponent + k) h := by
  -- The rounded mantissa has 53 bits and is shifted by nothing.
  have hagain : shiftToTargetExponent .binary64 (mantissa * 2 ^ 0) (exponent + k) .exact =
      (⟨mantissa, false, false⟩, exponent + k + (0 : Nat)) :=
    shiftToTargetExponent_exact hm (by omega)
  rw [Nat.pow_zero, Nat.mul_one] at hagain
  rw [roundWithAccuracy, shiftToTargetExponent_exact hm hlow]
  simp only [ExtendedMantissa.roundedMantissa, ExtendedMantissa.accuracy,
    Accuracy.roundToNearestEven, hagain]
  rw [dif_neg (by omega)]
  simp

/-! ## The double of a whole number -/

/-- The 53 bits that a whole number is shifted to. -/
theorem log2_normal {n : Nat} (hpos : 0 < n) (hlt : n < 2 ^ 53) :
    (n * 2 ^ (52 - n.log2)).log2 = 52 := by
  -- It is shifted so that its highest bit is the 53rd.
  have hlog : n.log2 < 53 := (Nat.log2_lt (by omega)).mpr hlt
  rw [log2_mul_two_pow (by omega)]
  omega

/-- A machine word below `2 ^ 53` is converted without loss. -/
theorem unpack_toFloat {n : Nat} (hpos : 0 < n) (hlt : n < 2 ^ 53)
    (hnormal : 0 < n * 2 ^ (52 - n.log2)) :
    n.toUInt64.toFloat.toModel.unpack =
      .finite .positive (n * 2 ^ (52 - n.log2)) (n.log2 - 52) hnormal := by
  have hlog : n.log2 < 53 := (Nat.log2_lt (by omega)).mpr hlt
  have hbits := log2_normal hpos hlt
  have htarget : Format.binary64.targetExponent (totalExponent n 0) = n.log2 - 52 := by
    show max ((n.log2 : Int) + 1 + 0 - 53) (-1074) = _
    omega
  -- The number is shifted up to 53 bits, and so nothing of it is lost.
  have hround : round .binary64 .positive n 0 =
      .finite .positive (n * 2 ^ (52 - n.log2)) (n.log2 - 52) hnormal := by
    have hexact : roundWithAccuracy .binary64 .positive (n * 2 ^ (52 - n.log2) * 2 ^ 0)
        (n.log2 - 52) .exact =
          .finite .positive (n * 2 ^ (52 - n.log2)) (n.log2 - 52 + (0 : Nat)) hnormal :=
      roundWithAccuracy_exact .positive hnormal hbits (by omega)
    rw [Nat.pow_zero, Nat.mul_one] at hexact
    have hamount : ((0 : Int) - (n.log2 - 52)).toNat = 52 - n.log2 := by omega
    rw [UnpackedFloat.round, htarget]
    simp only [decreaseExponent, hamount, Nat.shiftLeft_eq]
    rw [show (0 : Int) - ((52 - n.log2 : Nat) : Int) = n.log2 - 52 by omega, hexact]
    simp
  -- A machine word has room for the number.
  have hword : n.toUInt64.toNat = n := by
    rw [Nat.toUInt64, UInt64.toNat_ofNat']
    exact Nat.mod_eq_of_lt (by omega)
  show UnpackedFloat.unpack .binary64 (UnpackedFloat.pack .binary64
    (UnpackedFloat.normalize .binary64 (n.toUInt64.toNat : Int) 0 .positive)) = _
  rw [hword, UnpackedFloat.normalize, show compare (n : Int) 0 = .gt by
    rw [Int.compare_eq_gt]; omega]
  simp only [Int.toNat_natCast, hround]
  exact unpack_pack_finite hnormal hbits (by omega) (by omega)

/-- The bits of the double of a whole number. -/
theorem toBits_ofNat {n : Nat} (hpos : 0 < n) (hlt : n < 2 ^ 53)
    (hnormal : 0 < n * 2 ^ (52 - n.log2)) :
    (Float.ofNat n).toBits.toBitVec =
      UnpackedFloat.pack .binary64 (.finite .positive (n * 2 ^ (52 - n.log2)) (n.log2 - 52) hnormal) := by
  have hlog : n.log2 < 53 := (Nat.log2_lt (by omega)).mpr hlt
  have hbits := log2_normal hpos hlt
  -- A literal is a machine word times one, if it has no more than 53 bits.
  have hone : (Float.ofBits 0x3FF0000000000000).toModel.unpack =
      .finite .positive (2 ^ 52) (-52) (by decide) := by rfl
  have hmul : Float.ofNat n = n.toUInt64.toFloat * Float.ofBits 0x3FF0000000000000 := by
    show Float.ofScientific n false 0 = _
    rw [Float.ofScientific, dif_pos ⟨hlt, by decide⟩]
    rfl
  rw [hmul]
  show UnpackedFloat.pack .binary64
    (UnpackedFloat.mul .binary64 n.toUInt64.toFloat.toModel.unpack
      (Float.ofBits 0x3FF0000000000000).toModel.unpack) = _
  rw [unpack_toFloat hpos hlt hnormal, hone, UnpackedFloat.mul,
    roundWithAccuracy_exact _ hnormal hbits (by omega)]
  rw [show ((n.log2 : Int) - 52 + -52 + (52 : Nat)) = n.log2 - 52 by omega]
  rfl

/-- The double of a whole number, taken apart. -/
theorem unpack_ofNat {n : Nat} (hpos : 0 < n) (hlt : n < 2 ^ 53)
    (hnormal : 0 < n * 2 ^ (52 - n.log2)) :
    (Float.ofNat n).toModel.unpack =
      .finite .positive (n * 2 ^ (52 - n.log2)) (n.log2 - 52) hnormal := by
  have hlog : n.log2 < 53 := (Nat.log2_lt (by omega)).mpr hlt
  show UnpackedFloat.unpack .binary64 (Float.ofNat n).toBits.toBitVec = _
  rw [toBits_ofNat hpos hlt hnormal]
  exact unpack_pack_finite hnormal (log2_normal hpos hlt) (by omega) (by omega)

/-- Only zero gives a zero. -/
theorem ofNat_beq_zero {n : Nat} (hpos : 0 < n) (hlt : n < 2 ^ 53) :
    (Float.ofNat n == 0.0) = false := by
  -- There is no mantissa that is zero but that of zero.
  have hnormal : 0 < n * 2 ^ (52 - n.log2) := Nat.mul_pos hpos (Nat.two_pow_pos _)
  have hzero : (0.0 : Float).toModel.unpack = .zero .positive := by rfl
  show UnpackedFloat.beq (Float.ofNat n).toModel.unpack (0.0 : Float).toModel.unpack = false
  rw [unpack_ofNat hpos hlt hnormal, hzero]
  rfl

/-! ## What its bits stand for -/

/-- The fields of a positive normal double, read off its bits. -/
theorem decode_of_toNat_toBits {v : Float} {exponent fraction : Nat}
    (hbits : v.toBits.toNat = exponent * leadingBit + fraction) (hfraction : fraction < leadingBit)
    (hlow : 0 < exponent) (hhigh : exponent < 2047) :
    decode v = .finite false (leadingBit + fraction) ((exponent : Int) - 1075) := by
  have hdiv : v.toBits.toNat / leadingBit % 2048 = exponent := by
    simp only [leadingBit] at *
    omega
  have hmod : v.toBits.toNat % leadingBit = fraction := by
    simp only [leadingBit] at *
    omega
  have hsign : v.toBits.toNat.testBit 63 = false := by
    apply Nat.testBit_lt_two_pow
    simp only [leadingBit] at *
    omega
  simp only [decode, hsign, hdiv, hmod]
  rw [if_neg hhigh.ne, if_neg hlow.ne']

/-- A whole number is decoded with all its 53 bits. -/
theorem decode_ofNat {n : Nat} (hpos : 0 < n) (hlt : n < 2 ^ 53) :
    decode (Float.ofNat n) = .finite false (n * 2 ^ (52 - n.log2)) (n.log2 - 52) := by
  have hlog : n.log2 < 53 := (Nat.log2_lt (by omega)).mpr hlt
  have hm := log2_normal hpos hlt
  have hnormal : 0 < n * 2 ^ (52 - n.log2) := Nat.mul_pos hpos (Nat.two_pow_pos _)
  have hlow : leadingBit ≤ n * 2 ^ (52 - n.log2) := (Nat.le_log2 hnormal.ne').mp hm.ge
  have hhigh : n * 2 ^ (52 - n.log2) < 2 * leadingBit :=
    (Nat.log2_lt hnormal.ne').mp (hm.trans_lt (Nat.lt_succ_self 52))
  -- The fraction is what the mantissa has besides its leading bit.
  have hfraction : n * 2 ^ (52 - n.log2) % 2 ^ 52 = n * 2 ^ (52 - n.log2) - leadingBit := by
    show _ % leadingBit = _
    rw [Nat.mod_eq_sub_mod hlow, Nat.mod_eq_of_lt (by omega)]
  have hexponent : ((n.log2 : Int) - 52 + 1075).toNat = n.log2 + 1023 := by omega
  -- The exponent is biased by 1023, and the fraction stands behind it.
  have hbits : (Float.ofNat n).toBits.toNat =
      (n.log2 + 1023) * leadingBit + (n * 2 ^ (52 - n.log2) - leadingBit) := by
    show (Float.ofNat n).toBits.toBitVec.toNat = _
    rw [toBits_ofNat hpos hlt hnormal, pack_finite hnormal hm (by omega) (by omega),
      toNat_packComponents, hexponent, BitVec.toNat_ofNat, BitVec.toNat_ofNat, hfraction,
      Nat.mod_eq_of_lt (by omega)]
  rw [decode_of_toNat_toBits hbits (by omega) (by omega) (by omega), Nat.add_sub_cancel' hlow,
    show ((n.log2 + 1023 : Nat) : Int) - 1075 = n.log2 - 52 by omega]

/-- A double that is a whole number, without loss. -/
def IsWhole (v : Float) (n : Nat) : Prop :=
  ∃ mantissa exponent, decode v = .finite false mantissa exponent ∧
    (fractionOf mantissa exponent).1 = n * (fractionOf mantissa exponent).2

/-- The double of a whole number is that number without loss. -/
theorem isWhole_ofNat {n : Nat} (hpos : 0 < n) (hlt : n < 2 ^ 53) : IsWhole (Float.ofNat n) n := by
  have hlog : n.log2 < 53 := (Nat.log2_lt (by omega)).mpr hlt
  refine ⟨_, _, decode_ofNat hpos hlt, ?_⟩
  -- The shift that brought the number to 53 bits is that of the denominator.
  have hzero : ((n.log2 : Int) - 52).toNat = 0 := by omega
  have hshift : (-((n.log2 : Int) - 52)).toNat = 52 - n.log2 := by omega
  rw [fractionOf, hzero, hshift, Nat.shiftLeft_zero, Nat.one_shiftLeft]

end Verse.Numeric
