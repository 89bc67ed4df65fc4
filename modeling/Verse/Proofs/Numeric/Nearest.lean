import Mathlib
import Verse.Numeric.Decimal
import Verse.Proofs.Numeric.Whole

/-!
# Rounding to the nearest

Sums of doubles and decimal digits are both rounded to the nearest, and to the even one of two that
are equally near.  There is only one such number, so that it does not matter by which way it is
found: by the rest of a division, or by the last two bits that are shifted out of a mantissa.

* `IsNearest`                         a whole number that is nearest to a given number
* `isNearest_nearest`                 dividing with a rest finds it
* `Represents.isNearest`              a round bit and a sticky bit find it
* `roundWithAccuracy_of_isNearest`    the double of a number with more than 53 bits
* `roundWithAccuracy_of_carry`        the same if 53 bits are not enough for the mantissa
-/

namespace Verse.Numeric

open Float.Model UnpackedFloat

/-! ## The nearest whole number -/

/-- A whole number is nearest to `x`, and the even one if `x` is halfway between two. -/
def IsNearest (n : ℤ) (x : ℚ) : Prop :=
  |x - n| ≤ 1 / 2 ∧ (|x - n| = 1 / 2 → Even n)

/-- Less than one half away, there is no second number that is as near. -/
theorem isNearest_of_abs_lt {n : ℤ} {x : ℚ} (h : |x - n| < 1 / 2) : IsNearest n x :=
  ⟨h.le, fun heq => absurd heq h.ne⟩

/-- A whole number is nearest to itself. -/
theorem isNearest_intCast (n : ℤ) : IsNearest n n :=
  isNearest_of_abs_lt (by simp)

/-- Less than one half away, no other number is nearest. -/
theorem IsNearest.eq_of_abs_lt {n : ℤ} {x : ℚ} (h : IsNearest n x) {k : ℤ} (hk : |x - k| < 1 / 2) :
    n = k := by
  have hn := h.1
  rw [abs_le] at hn
  rw [abs_lt] at hk
  -- The two numbers are less than one apart.
  have hlow : (n : ℚ) < k + 1 := by linarith
  have hhigh : (k : ℚ) < n + 1 := by linarith
  norm_cast at hlow hhigh
  omega

/-- There is only one. -/
theorem IsNearest.unique {n k : ℤ} {x : ℚ} (hn : IsNearest n x) (hk : IsNearest k x) : n = k := by
  obtain hlt | heq := hk.1.lt_or_eq
  · exact hn.eq_of_abs_lt hlt
  obtain hlt' | heq' := hn.1.lt_or_eq
  · exact (hk.eq_of_abs_lt hlt').symm
  · -- Both are halfway, and two even numbers are not next to each other.
    have hevenN := hn.2 heq'
    have hevenK := hk.2 heq
    have hn' := abs_le.mp hn.1
    have hk' := abs_le.mp hk.1
    have hlow : (n : ℚ) ≤ k + 1 := by linarith
    have hhigh : (k : ℚ) ≤ n + 1 := by linarith
    norm_cast at hlow hhigh
    rw [Int.even_iff] at hevenN hevenK
    omega

section

variable {low : Nat} {part : ℚ}

/-- Up to the middle, a number is rounded down, and at the middle only to an even number. -/
theorem isNearest_of_le_half (hnonneg : 0 ≤ part) (hle : part ≤ 1 / 2)
    (heven : part = 1 / 2 → low % 2 = 0) : IsNearest low (low + part) := by
  rw [IsNearest, Int.cast_natCast, add_sub_cancel_left, abs_of_nonneg hnonneg]
  refine ⟨hle, fun htie => ?_⟩
  have := heven htie
  rw [Int.even_iff]
  omega

/-- From the middle on, a number is rounded up, and at the middle only from an odd number. -/
theorem isNearest_of_half_le (hle : 1 / 2 ≤ part) (hone : part ≤ 1)
    (hodd : part = 1 / 2 → low % 2 = 1) : IsNearest (low + 1 : ℕ) (low + part) := by
  have habs : |low + part - (((low + 1 : ℕ) : ℤ) : ℚ)| = 1 - part := by
    rw [abs_of_nonpos (by push_cast; linarith)]
    push_cast
    ring
  rw [IsNearest, habs]
  refine ⟨by linarith, fun htie => ?_⟩
  -- The rest is one half too, when the distance is.
  have := hodd (by linarith)
  rw [Int.even_iff]
  push_cast
  omega

end

/-- The rest of a division tells on which side of the middle a number is. -/
theorem isNearest_nearest (num : Nat) {den : Nat} (hden : 0 < den) :
    IsNearest (nearest num den) (num / den : ℚ) := by
  have hpos : (0 : ℚ) < den := Nat.cast_pos.mpr hden
  have hdiv := Nat.div_add_mod num den
  have hmod := Nat.mod_lt num hden
  rw [nearest]
  -- From here on only the quotient and the rest matter.
  generalize num / den = low at hdiv ⊢
  generalize num % den = rest at hdiv hmod ⊢
  have hx : (num / den : ℚ) = low + rest / den := by
    rw [← hdiv]
    push_cast
    field_simp
  -- The rest is one half just if twice of it is the divisor.
  have htie : (rest / den : ℚ) = 1 / 2 → 2 * rest = den := by
    intro h
    rw [div_eq_div_iff hpos.ne' two_ne_zero] at h
    norm_cast at h
    omega
  rw [hx]
  split
  -- Up to the middle the quotient is taken, but at the middle only if it is even.
  case isTrue h =>
    have hhalf : (rest / den : ℚ) ≤ 1 / 2 := by
      rw [div_le_div_iff₀ hpos two_pos]
      norm_cast
      omega
    apply isNearest_of_le_half (by positivity) hhalf
    intro heq
    have := htie heq
    omega
  case isFalse h =>
    have hhalf : (1 / 2 : ℚ) ≤ rest / den := by
      rw [div_le_div_iff₀ two_pos hpos]
      norm_cast
      omega
    have hone : (rest / den : ℚ) ≤ 1 := by
      rw [div_le_one hpos]
      exact_mod_cast hmod.le
    apply isNearest_of_half_le hhalf hone
    intro heq
    have := htie heq
    omega

/-! ## The bits that are shifted out -/

/-- A mantissa with the bit that was shifted out last, in halves. -/
def keptValue (m : ExtendedMantissa) : ℚ :=
  m.mantissa + if m.roundBit then 1 / 2 else 0

/-- What is left of a number when bits of it are shifted out: the mantissa and the round bit, and
    the sticky bit if there is more. -/
def Represents (m : ExtendedMantissa) (x : ℚ) : Prop :=
  if m.stickyBit then keptValue m < x ∧ x < keptValue m + 1 / 2 else x = keptValue m

/-- One more bit that is shifted out halves the number that is represented. -/
theorem Represents.shiftRightOne {m : ExtendedMantissa} {x : ℚ} (h : Represents m x) :
    Represents m.shiftRightOne (x / 2) := by
  -- The last bit of the mantissa becomes the round bit, and the old round bit goes into the
  -- sticky bit.
  obtain ⟨mantissa, roundBit, stickyBit⟩ := m
  have hdiv : (mantissa : ℚ) = 2 * (mantissa / 2 : ℕ) + (mantissa % 2 : ℕ) := by
    exact_mod_cast (Nat.div_add_mod mantissa 2).symm
  obtain hbit | hbit := Nat.mod_two_eq_zero_or_one mantissa <;>
    cases roundBit <;> cases stickyBit <;>
      simp [Represents, keptValue, ExtendedMantissa.shiftRightOne, hbit] at h hdiv ⊢ <;>
      first | (constructor <;> linarith) | linarith

/-- The same for as many bits as are shifted out. -/
theorem Represents.shiftRight {m : ExtendedMantissa} {x : ℚ} (h : Represents m x) (k : Nat) :
    Represents (m >>> k) (x / 2 ^ k) := by
  show Represents (k.repeat ExtendedMantissa.shiftRightOne m) _
  induction k with
  | zero => simpa [Nat.repeat] using h
  | succ k ih =>
    rw [Nat.repeat, pow_succ, ← div_div]
    exact ih.shiftRightOne

/-- Halfway between two numbers, the even one is nearest. -/
theorem isNearest_add_half (low : Nat) : IsNearest (low + low % 2 : ℕ) (low + 1 / 2) := by
  obtain hbit | hbit := Nat.mod_two_eq_zero_or_one low
  · rw [hbit, Nat.add_zero]
    exact isNearest_of_le_half (by norm_num) (le_refl _) fun _ => hbit
  · rw [hbit]
    exact isNearest_of_half_le (le_refl _) (by norm_num) fun _ => hbit

/-- The two bits are enough to round to the nearest. -/
theorem Represents.isNearest {m : ExtendedMantissa} {x : ℚ} (h : Represents m x) :
    IsNearest m.roundedMantissa x := by
  obtain ⟨mantissa, roundBit, stickyBit⟩ := m
  -- Everything is told by what the number has beyond the mantissa.
  obtain ⟨part, rfl⟩ : ∃ part, x = mantissa + part := ⟨x - mantissa, by ring⟩
  cases roundBit with
  | false =>
    -- Less than one half is left.
    have hbounds : 0 ≤ part ∧ part < 1 / 2 := by
      cases stickyBit <;> simp [Represents, keptValue] at h <;> constructor <;> linarith
    have hrounded : (⟨mantissa, false, stickyBit⟩ : ExtendedMantissa).roundedMantissa = mantissa := by
      cases stickyBit <;> rfl
    rw [hrounded]
    exact isNearest_of_le_half hbounds.1 hbounds.2.le fun heq => absurd heq hbounds.2.ne
  -- One half is left at least, and more if the sticky bit is set.
  | true =>
    cases stickyBit with
    | false =>
      have hhalf : part = 1 / 2 := by simpa [Represents, keptValue] using h
      rw [hhalf]
      exact isNearest_add_half mantissa
    | true =>
      have hbounds : 1 / 2 < part ∧ part < 1 := by
        simp [Represents, keptValue] at h
        constructor <;> linarith
      exact isNearest_of_half_le hbounds.1.le hbounds.2.le fun heq => absurd heq hbounds.1.ne'

/-! ## Rounding to 53 bits -/

/-- The exponent of a normal double with a given number of bits. -/
theorem targetExponent_eq {mantissa k : Nat} {exponent : Int} (hlog : mantissa.log2 = 52 + k)
    (hlow : -1074 ≤ exponent + k) :
    Format.binary64.targetExponent (totalExponent mantissa exponent) = exponent + k := by
  rw [totalExponent, hlog]
  show max (((52 + k : Nat) : Int) + 1 + exponent - 53) (-1074) = _
  omega

/-- A number with more than 53 bits is not shifted up before it is rounded. -/
theorem round_eq_roundWithAccuracy (sign : Sign) {mantissa k : Nat} {exponent : Int}
    (hlog : mantissa.log2 = 52 + k) (hlow : -1074 ≤ exponent + k) :
    UnpackedFloat.round .binary64 sign mantissa exponent =
      roundWithAccuracy .binary64 sign mantissa exponent .exact := by
  have hamount : (exponent - (exponent + k)).toNat = 0 := by omega
  rw [UnpackedFloat.round, targetExponent_eq hlog hlow]
  simp only [decreaseExponent, hamount, Nat.shiftLeft_zero, Nat.cast_zero, sub_zero]

/-- It is shifted down instead, until 53 bits of it are left. -/
theorem shiftToTargetExponent_eq {mantissa k : Nat} {exponent : Int} (hlog : mantissa.log2 = 52 + k)
    (hlow : -1074 ≤ exponent + k) :
    shiftToTargetExponent .binary64 mantissa exponent .exact =
      ((⟨mantissa, false, false⟩ : ExtendedMantissa) >>> k, exponent + k) := by
  rw [shiftToTargetExponent, targetExponent_eq hlog hlow, shiftToExponent]
  have hamount : (exponent + k - exponent).toNat = k := by omega
  simp only [hamount, ExtendedMantissa.ofMantissaAndAccuracy]

/-- The mantissa that is shifted to 53 bits is rounded to the nearest. -/
theorem roundedMantissa_eq {mantissa k r : Nat} (hr : IsNearest r (mantissa / 2 ^ k : ℚ)) :
    ((⟨mantissa, false, false⟩ : ExtendedMantissa) >>> k).roundedMantissa = r := by
  have hrepresents : Represents ⟨mantissa, false, false⟩ mantissa := by simp [Represents, keptValue]
  exact_mod_cast (hrepresents.shiftRight k).isNearest.unique hr

/-- What a number with so many bits is rounded to has 53 bits again. -/
theorem log2_eq_of_isNearest {mantissa k r : Nat} (hlog : mantissa.log2 = 52 + k)
    (hr : IsNearest r (mantissa / 2 ^ k : ℚ)) (hlt : r < 2 ^ 53) : r.log2 = 52 := by
  have hne : mantissa ≠ 0 := by
    rintro rfl
    rw [Nat.log2_zero] at hlog
    omega
  have hle : 2 ^ (52 + k) ≤ mantissa := hlog ▸ Nat.log2_self_le hne
  -- The number is not below `2 ^ 52` in the new unit, so what it is rounded to is not either.
  have hx : (2 ^ 52 : ℚ) ≤ mantissa / 2 ^ k := by
    rw [le_div_iff₀ (by positivity), ← pow_add]
    exact_mod_cast hle
  have hbound := (abs_le.mp hr.1).2
  have hlow : (2 ^ 52 : ℚ) < r + 1 := by
    push_cast at hbound
    linarith
  have hlow' : 2 ^ 52 < r + 1 := by exact_mod_cast hlow
  rw [Nat.log2_eq_iff (by omega)]
  omega

/-- A number with more than 53 bits is rounded to the nearest one that has 53. -/
theorem roundWithAccuracy_of_isNearest (sign : Sign) {mantissa k r : Nat} {exponent : Int}
    (hlog : mantissa.log2 = 52 + k) (hlow : -1074 ≤ exponent + k)
    (hr : IsNearest r (mantissa / 2 ^ k : ℚ)) (hlt : r < 2 ^ 53) (hpos : 0 < r) :
    roundWithAccuracy .binary64 sign mantissa exponent .exact =
      .finite sign r (exponent + k) hpos := by
  -- There is nothing left to shift out.
  have hagain : shiftToTargetExponent .binary64 r (exponent + k) .exact =
      (⟨r, false, false⟩, exponent + k) := by
    have hexact : shiftToTargetExponent .binary64 (r * 2 ^ 0) (exponent + k) .exact =
        (⟨r, false, false⟩, exponent + k + (0 : Nat)) :=
      shiftToTargetExponent_exact (log2_eq_of_isNearest hlog hr hlt) (by omega)
    rwa [pow_zero, mul_one, Nat.cast_zero, add_zero] at hexact
  -- The first shift leaves the 53 bits that are rounded, and the second one nothing to round.
  rw [roundWithAccuracy, shiftToTargetExponent_eq hlog hlow]
  simp only [roundedMantissa_eq hr, hagain, dif_neg hpos.ne']

/-- Rounding up can carry into one more bit. -/
theorem roundWithAccuracy_of_carry (sign : Sign) {mantissa k : Nat} {exponent : Int}
    (hlog : mantissa.log2 = 52 + k) (hlow : -1074 ≤ exponent + k)
    (hr : IsNearest (2 ^ 53 : ℕ) (mantissa / 2 ^ k : ℚ)) :
    roundWithAccuracy .binary64 sign mantissa exponent .exact =
      .finite sign (2 ^ 52) (exponent + k + 1) (by decide) := by
  -- The number that is carried has a zero at its end, which is all that is shifted out.
  have hagain : shiftToTargetExponent .binary64 (2 ^ 53) (exponent + k) .exact =
      (⟨2 ^ 52, false, false⟩, exponent + k + (1 : Nat)) := by
    rw [show (2 ^ 53 : ℕ) = 2 ^ 52 * 2 ^ 1 by norm_num]
    exact shiftToTargetExponent_exact Nat.log2_two_pow (by omega)
  rw [roundWithAccuracy, shiftToTargetExponent_eq hlog hlow]
  simp only [roundedMantissa_eq hr, hagain]
  rfl

end Verse.Numeric
