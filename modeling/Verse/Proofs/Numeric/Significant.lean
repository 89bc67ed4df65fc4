import Verse.Proofs.Numeric.Nearest

/-!
# Significant digits

A positive number is rounded to a number of significant digits by finding its leading power of ten
and then the nearest multiple of the power of its last digit.  Rounding up can carry into the next
power of ten.  The digits are then found once more by rounding at the place where the last of them
stands now, so that it does not matter whether the carry is seen before the number is rounded.

* `leadingPower_spec`         the leading power of ten
* `Rounded`                   the digits and the leading power of a number that is rounded
* `Rounded.unique`            there is just one of each
* `rounded_significant`       the digits that are found are the right ones
* `Rounded.isNearest`         rounding once more at the place of the last digit
-/

namespace Verse.Numeric

/-- The powers of ten are computed by repeated multiplication. -/
theorem tenTo_eq_pow (n : Nat) : tenTo n = 10 ^ n := by
  induction n with
  | zero => rfl
  | succ n ih => rw [tenTo, ih, Nat.pow_succ']

/-! ## The leading power -/

section

variable {num den : Nat} (hnum : 0 < num) (hden : 0 < den)
include hnum hden

omit hnum in
/-- From one on, the quotient has the leading power of the number. -/
theorem leadingPower_of_le (hle : den ≤ num) :
    (10 : ℚ) ^ (magnitude (num / den) : ℤ) ≤ num / den ∧
      (num / den : ℚ) < 10 ^ (magnitude (num / den) + 1 : ℤ) := by
  have hpos : (0 : ℚ) < den := Nat.cast_pos.mpr hden
  have hquotient : 0 < num / den := Nat.div_pos hle hden
  have hlow := tenTo_magnitude_le hquotient
  have hhigh := lt_tenTo_magnitude (num / den)
  generalize magnitude (num / den) = k at hlow hhigh
  rw [tenTo_eq_pow] at hlow hhigh
  constructor
  -- The bounds are whole numbers, so that it makes no difference whether the quotient is rounded.
  · rw [zpow_natCast, le_div_iff₀ hpos]
    exact_mod_cast (Nat.le_div_iff_mul_le hden).mp hlow
  · rw [div_lt_iff₀ hpos]
    exact_mod_cast (Nat.div_lt_iff_lt_mul hden).mp hhigh

/-- Below one, the leading power is told by one over the number, a power less if that is just a
    power of ten. -/
theorem leadingPower_of_lt (hlt : num < den) :
    (10 : ℚ) ^ (-(magnitude ((den + num - 1) / num - 1) + 1) : ℤ) ≤ num / den ∧
      (num / den : ℚ) < 10 ^ (-(magnitude ((den + num - 1) / num - 1)) : ℤ) := by
  have hpos : (0 : ℚ) < den := Nat.cast_pos.mpr hden
  -- One over the number is rounded up.
  obtain ⟨c, hc⟩ : ∃ c, (den + num - 1) / num = c + 1 := by
    have : 0 < (den + num - 1) / num := Nat.div_pos (by omega) hnum
    exact ⟨(den + num - 1) / num - 1, by omega⟩
  have hceil_le : den ≤ (c + 1) * num := by
    have hdiv := Nat.div_add_mod (den + num - 1) num
    have hmod := Nat.mod_lt (den + num - 1) hnum
    rw [hc] at hdiv
    rw [Nat.mul_comm]
    omega
  have hlt_ceil : c * num < den := by
    have hdiv := Nat.div_mul_le_self (den + num - 1) num
    rw [hc, Nat.succ_mul] at hdiv
    omega
  have hcpos : 0 < c := by
    apply Nat.pos_of_ne_zero
    rintro rfl
    omega
  -- One over the number is above `c` and at most `c + 1`, and so are the powers of ten around it.
  have hlow := tenTo_magnitude_le hcpos
  have hhigh := lt_tenTo_magnitude c
  rw [hc, Nat.add_sub_cancel]
  generalize magnitude c = k at hlow hhigh
  rw [tenTo_eq_pow] at hlow hhigh
  have hpow : ∀ n : Nat, (0 : ℚ) < 10 ^ n := fun n => by positivity
  constructor
  · rw [show (-(k + 1) : ℤ) = -((k + 1 : ℕ) : ℤ) by omega, zpow_neg, zpow_natCast,
      inv_le_iff_one_le_mul₀ (hpow _), div_mul_eq_mul_div, one_le_div hpos]
    have hle : den ≤ num * 10 ^ (k + 1) :=
      hceil_le.trans ((Nat.mul_le_mul_right num hhigh).trans_eq (Nat.mul_comm _ _))
    exact_mod_cast hle
  · rw [zpow_neg, zpow_natCast, lt_inv_comm₀ (by positivity) (hpow _), inv_div,
      lt_div_iff₀ (Nat.cast_pos.mpr hnum)]
    exact_mod_cast (Nat.mul_le_mul_right num hlow).trans_lt hlt_ceil

/-- The leading power of ten is the one at or below the number. -/
theorem leadingPower_spec :
    (10 : ℚ) ^ leadingPower num den ≤ num / den ∧
      (num / den : ℚ) < 10 ^ (leadingPower num den + 1) := by
  rw [leadingPower]
  split
  case isTrue h => exact leadingPower_of_le hden h
  case isFalse h =>
    obtain ⟨hlow, hhigh⟩ := leadingPower_of_lt hnum hden (not_le.mp h)
    push_cast
    exact ⟨hlow, by rwa [neg_add_rev, neg_add_cancel_comm]⟩

end

/-! ## Rounded numbers -/

/-- What `x` is rounded to: `digits · 10 ^ (power - k)`, with `k` digits after the leading one.  The
    nearest number is looked for among the multiples of `10 ^ (p - k)`, where `10 ^ p` is the leading
    power of `x` itself. -/
structure Rounded (k : Nat) (x : ℚ) (digits : Nat) (power : Int) : Prop where
  exists_nearest : ∃ (p : Int) (n : Nat), (10 : ℚ) ^ p ≤ x ∧ x < 10 ^ (p + 1) ∧
    IsNearest n (x / 10 ^ (p - k)) ∧ (digits * 10 ^ (power - k) : ℚ) = n * 10 ^ (p - k)
  le_digits : 10 ^ k ≤ digits
  digits_lt : digits < 10 ^ (k + 1)

section

variable {k : Nat} {x : ℚ} {d n : Nat} {e p : Int}

/-- Every power of ten is positive. -/
theorem ten_zpow_pos (e : Int) : (0 : ℚ) < 10 ^ e := zpow_pos (by norm_num) e

/-- Greater powers have greater exponents. -/
theorem ten_zpow_lt_iff : (10 : ℚ) ^ e < 10 ^ p ↔ e < p :=
  zpow_lt_zpow_iff_right₀ (by norm_num)

/-- One power more is ten times as much. -/
theorem mul_ten_zpow_succ (y : ℚ) (e : Int) : y * 10 ^ (e + 1) = y * 10 * 10 ^ e := by
  rw [zpow_add_one₀ (by norm_num)]
  ring

/-- The leading power of digits. -/
theorem ten_zpow_le_and_lt (hlow : 10 ^ k ≤ d) (hhigh : d < 10 ^ (k + 1)) (e : Int) :
    (10 : ℚ) ^ e ≤ d * 10 ^ (e - k) ∧ (d * 10 ^ (e - k) : ℚ) < 10 ^ (e + 1) := by
  have hpow : ∀ j : Int, (10 : ℚ) ^ (j + k) * 10 ^ (e - k) = 10 ^ (e + j) := by
    intro j
    rw [← zpow_add₀ (by norm_num)]
    congr 1
    omega
  -- The digits are between two powers of ten, and so they are after both are multiplied.
  have hlow' : ((10 : ℚ) ^ ((0 : Int) + k)) ≤ d := by
    rw [zero_add, zpow_natCast]
    exact_mod_cast hlow
  have hhigh' : (d : ℚ) < 10 ^ ((1 : Int) + k) := by
    rw [show (1 + k : Int) = ((k + 1 : ℕ) : Int) by omega, zpow_natCast]
    exact_mod_cast hhigh
  constructor
  · rw [← add_zero e, ← hpow 0, add_zero]
    exact mul_le_mul_of_nonneg_right hlow' (ten_zpow_pos _).le
  · rw [← hpow 1]
    exact mul_lt_mul_of_pos_right hhigh' (ten_zpow_pos _)

/-- Digits with a power are told by the number that they stand for, if there are so many of them.
    -/
theorem eq_of_mul_ten_zpow_eq {d' : Nat} {e' : Int} (hlow : 10 ^ k ≤ d) (hhigh : d < 10 ^ (k + 1))
    (hlow' : 10 ^ k ≤ d') (hhigh' : d' < 10 ^ (k + 1))
    (h : (d * 10 ^ (e - k) : ℚ) = d' * 10 ^ (e' - k)) : d = d' ∧ e = e' := by
  obtain ⟨hle, hlt⟩ := ten_zpow_le_and_lt hlow hhigh e
  obtain ⟨hle', hlt'⟩ := ten_zpow_le_and_lt hlow' hhigh' e'
  rw [h] at hle hlt
  -- Both powers are the leading one of the same number.
  have he := ten_zpow_lt_iff.mp (hle.trans_lt hlt')
  have he' := ten_zpow_lt_iff.mp (hle'.trans_lt hlt)
  obtain rfl : e = e' := by omega
  exact ⟨by exact_mod_cast mul_right_cancel₀ (ten_zpow_pos _).ne' h, rfl⟩

/-- A number is rounded in one way only. -/
theorem Rounded.unique {d' : Nat} {e' : Int} (h : Rounded k x d e) (h' : Rounded k x d' e') :
    d = d' ∧ e = e' := by
  obtain ⟨⟨p, n, hlow, hhigh, hnearest, hvalue⟩, hle, hlt⟩ := h
  obtain ⟨⟨p', n', hlow', hhigh', hnearest', hvalue'⟩, hle', hlt'⟩ := h'
  -- There is one leading power, one nearest number for it, and one way to write that.
  have hp := ten_zpow_lt_iff.mp (hlow.trans_lt hhigh')
  have hp' := ten_zpow_lt_iff.mp (hlow'.trans_lt hhigh)
  obtain rfl : p = p' := by omega
  have hn : (n : Int) = n' := hnearest.unique hnearest'
  obtain rfl : n = n' := by exact_mod_cast hn
  exact eq_of_mul_ten_zpow_eq hle hlt hle' hlt' (hvalue.trans hvalue'.symm)

/-- The nearest number has `k` more digits than one, or is the first that has more. -/
theorem nearest_bounds (hlow : (10 : ℚ) ^ p ≤ x) (hhigh : x < 10 ^ (p + 1))
    (hn : IsNearest n (x / 10 ^ (p - k))) : 10 ^ k ≤ n ∧ n ≤ 10 ^ (k + 1) := by
  have hpos := ten_zpow_pos (p - k)
  have hbound := abs_le.mp hn.1
  have hsplit : ∀ j : Int, (10 : ℚ) ^ (p + j) = 10 ^ (k + j) * 10 ^ (p - k) := by
    intro j
    rw [← zpow_add₀ (by norm_num)]
    congr 1
    omega
  -- In units of the last place, the number is between the two bounds, and what it is rounded to
  -- is not beyond them.
  have hle : ((10 ^ k : ℕ) : ℚ) ≤ x / 10 ^ (p - k) := by
    rw [le_div_iff₀ hpos]
    have hzero := hsplit 0
    rw [add_zero, add_zero, zpow_natCast] at hzero
    push_cast
    rwa [← hzero]
  have hlt : x / 10 ^ (p - k) < ((10 ^ (k + 1) : ℕ) : ℚ) := by
    rw [div_lt_iff₀ hpos]
    have hone := hsplit 1
    rw [← Nat.cast_one, ← Nat.cast_add, zpow_natCast, Nat.cast_one] at hone
    push_cast
    rwa [← hone]
  push_cast at hbound
  constructor
  · have : ((10 ^ k : ℕ) : ℚ) < ((n + 1 : ℕ) : ℚ) := by
      push_cast at hle ⊢
      linarith
    exact Nat.lt_succ_iff.mp (Nat.cast_lt.mp this)
  · have : ((n : ℕ) : ℚ) < ((10 ^ (k + 1) + 1 : ℕ) : ℚ) := by
      push_cast at hlt ⊢
      linarith
    exact Nat.lt_succ_iff.mp (Nat.cast_lt.mp this)

/-- Rounding once more, at the place where the last digit stands, finds the same digits. -/
theorem Rounded.isNearest (h : Rounded k x d e) : IsNearest d (x / 10 ^ (e - k)) := by
  obtain ⟨⟨p, n, hlow, hhigh, hnearest, hvalue⟩, hle, hlt⟩ := h
  obtain ⟨hn, hn'⟩ := nearest_bounds hlow hhigh hnearest
  obtain hnlt | rfl := hn'.lt_or_eq
  · obtain ⟨rfl, rfl⟩ := eq_of_mul_ten_zpow_eq hle hlt hn hnlt hvalue
    exact hnearest
  · -- The place is ten times what it was, and so the rounded number is still nearer.
    have hcarry : ((10 ^ (k + 1) : ℕ) * 10 ^ (p - k) : ℚ) = (10 ^ k : ℕ) * 10 ^ (p + 1 - k) := by
      rw [show p + 1 - k = p - k + 1 by omega, mul_ten_zpow_succ]
      push_cast
      ring
    rw [hcarry] at hvalue
    obtain ⟨rfl, rfl⟩ :=
      eq_of_mul_ten_zpow_eq hle hlt (le_refl _) (Nat.pow_lt_pow_right (by norm_num) k.lt_succ_self)
        hvalue
    -- A carried number is at most a half of the old place away, which is a twentieth of the new
    -- one.
    apply isNearest_of_abs_lt
    have hbound := hnearest.1
    have hx : x / 10 ^ (p + 1 - k) = x / 10 ^ (p - k) / 10 := by
      rw [show p + 1 - k = p - k + 1 by omega, zpow_add_one₀ (by norm_num), div_div]
    rw [hx]
    rw [abs_le] at hbound
    rw [abs_lt]
    push_cast [pow_succ] at hbound ⊢
    constructor <;> linarith

end

/-! ## The digits that are found -/

/-- A shift of the point is a multiplication, of the numerator or of the denominator. -/
theorem scaled_eq (num : Nat) {den : Nat} (hden : 0 < den) (shift : Int) :
    ((num * tenTo shift.toNat : ℕ) / (den * tenTo (-shift).toNat : ℕ) : ℚ) =
      num / den / 10 ^ (-shift) := by
  have hpos : (0 : ℚ) < den := Nat.cast_pos.mpr hden
  have hpow : (10 : ℚ) ^ (-shift) = 10 ^ (-shift).toNat / 10 ^ shift.toNat := by
    rw [← zpow_natCast, ← zpow_natCast, ← zpow_sub₀ (by norm_num)]
    congr 1
    omega
  rw [hpow, tenTo_eq_pow, tenTo_eq_pow]
  push_cast
  field_simp

/-- The digits that are found are those of the rounded number, with its leading power. -/
theorem rounded_significant (k : Nat) {num den : Nat} (hnum : 0 < num) (hden : 0 < den) :
    Rounded k (num / den) (significant (k + 1) num den).1 (significant (k + 1) num den).2 := by
  obtain ⟨hlow, hhigh⟩ := leadingPower_spec hnum hden
  rw [significant]
  generalize leadingPower num den = p at hlow hhigh
  have hshift : ((k + 1 : ℕ) : Int) - 1 - p = -(p - k) := by omega
  rw [hshift, neg_neg]
  -- The number is divided by the power of its last digit before it is rounded.
  have hnearest : IsNearest (nearest (num * tenTo (-(p - k)).toNat) (den * tenTo (p - k).toNat))
      (num / den / 10 ^ (p - k) : ℚ) := by
    have hpos : 0 < den * tenTo (p - k).toNat := by
      rw [tenTo_eq_pow]
      positivity
    have hscaled := scaled_eq num hden (-(p - k))
    rw [neg_neg] at hscaled
    rw [← hscaled]
    exact isNearest_nearest _ hpos
  generalize nearest _ _ = n at hnearest
  obtain ⟨hn, hn'⟩ := nearest_bounds hlow hhigh hnearest
  rw [tenTo_eq_pow, tenTo_eq_pow, Nat.add_sub_cancel]
  split
  -- A number with one digit more is a power of ten, and is written with the next power.
  case isTrue hcarry =>
    refine ⟨⟨p, n, hlow, hhigh, hnearest, ?_⟩, le_refl _,
      Nat.pow_lt_pow_right (by norm_num) k.lt_succ_self⟩
    rw [hcarry, show p + 1 - k = p - k + 1 by omega, mul_ten_zpow_succ]
    push_cast
    ring
  case isFalse hcarry =>
    exact ⟨⟨p, n, hlow, hhigh, hnearest, rfl⟩, hn, lt_of_le_of_ne hn' hcarry⟩

end Verse.Numeric
