import Verse.Proofs.Numeric.Nearest
import Verse.Proofs.Numeric.Value

/-!
# Adding one to a double

One more than a whole double below `2 ^ 53` is a double.  From there on only every second whole number
is one, and one more is halfway between two of them, or not even that far.  It is then rounded to the
multiple of four, or back.

* `unpack_one_more`            the sum, before it is rounded
* `halfUp`                     what is left of one behind the last bit of a mantissa
* `rational?_one_more_of_lt`   one more, if there is such a double
* `rational?_one_more_of_le`   one more, if it has to be rounded
-/

namespace Verse.Numeric

open Float.Model UnpackedFloat

variable {v : Float} {sign : Sign} {negative : Bool} {mantissa : Nat} {exponent : Int}

/-! ## Adding one -/

/-- A sum that is not zero is rounded with its sign. -/
theorem normalize_apply (sign : Sign) {n : Nat} (hn : 0 < n) (exponent : Int) (zero : Sign) :
    UnpackedFloat.normalize .binary64 (sign.apply n) exponent zero =
      UnpackedFloat.round .binary64 sign n exponent := by
  -- What the sign is applied to is not zero, so it decides on which side of zero the sum is.
  cases sign with
  | positive =>
    have hcompare : compare (n : Int) 0 = .gt := by
      rw [Int.compare_eq_gt]
      omega
    rw [Sign.apply, UnpackedFloat.normalize, hcompare]
    rfl
  | negative =>
    have hcompare : compare (-n : Int) 0 = .lt := by
      rw [Int.compare_eq_lt]
      omega
    rw [Sign.apply, UnpackedFloat.normalize, hcompare]
    simp

/-- One more is added to a whole magnitude in units of `2 ^ (-52)`, and the sum is rounded. -/
theorem unpack_one_more {h : 0 < mantissa} {k : Nat}
    (hv : v.toModel.unpack = .finite sign mantissa exponent h) (he : -52 ≤ exponent)
    (hk : (mantissa * 2 ^ exponent : ℚ) = k) :
    (if v < 0.0 then v - 1.0 else v + 1.0).toModel.unpack =
      UnpackedFloat.unpack .binary64
        (UnpackedFloat.pack .binary64
          (UnpackedFloat.round .binary64 sign ((k + 1) * 2 ^ 52) (-52))) := by
  -- The unit of a one is the smaller of the two, as the exponent of the other is not below it.
  have hone : (1.0 : Float).toModel.unpack = .finite .positive (2 ^ 52) (-52) (by decide) := by rfl
  have hpos : 0 < (k + 1) * 2 ^ 52 := by positivity
  have hmin : min exponent (-52) = -52 := by omega
  -- In these units the magnitude is a whole number as well.
  have hunits : mantissa * 2 ^ (exponent - -52).toNat = k * 2 ^ 52 := by
    have hpow : (2 : ℚ) ^ (exponent - -52).toNat = 2 ^ exponent * 2 ^ 52 := by
      rw [← zpow_natCast, ← zpow_natCast, ← zpow_add₀ two_ne_zero]
      congr 1
      omega
    have hcast : (mantissa * 2 ^ (exponent - -52).toNat : ℚ) = k * 2 ^ 52 := by
      rw [hpow, ← mul_assoc, hk]
    exact_mod_cast hcast
  have hsum : ((k * 2 ^ 52 : ℕ) : ℤ) + ((2 ^ 52 * 2 ^ (-52 - -52 : ℤ).toNat : ℕ) : ℤ) =
      (((k + 1) * 2 ^ 52 : ℕ) : ℤ) := by
    rw [sub_self, Int.toNat_zero]
    push_cast
    ring
  -- The sign of the number decides whether one is added or taken away.
  have hneg := lt_zero_iff (decode_of_unpack hv) h
  cases sign with
  | positive =>
    rw [if_neg (by rw [hneg]; decide)]
    show UnpackedFloat.unpack .binary64 (UnpackedFloat.pack .binary64
      (UnpackedFloat.add .binary64 v.toModel.unpack (1.0 : Float).toModel.unpack)) = _
    rw [hv, hone, ← normalize_apply .positive hpos (-52) .positive]
    simp only [UnpackedFloat.add, decreaseExponent, hmin, Sign.apply, Nat.shiftLeft_eq, hunits, hsum]
  | negative =>
    rw [if_pos (hneg.mpr rfl)]
    show UnpackedFloat.unpack .binary64 (UnpackedFloat.pack .binary64
      (UnpackedFloat.sub .binary64 v.toModel.unpack (1.0 : Float).toModel.unpack)) = _
    rw [hv, hone, ← normalize_apply .negative hpos (-52) .positive]
    simp only [UnpackedFloat.sub, decreaseExponent, hmin, Sign.apply, Nat.shiftLeft_eq, hunits]
    rw [← neg_add', hsum]

section

variable {n j r : Nat} (hn : 0 < n) (hj : n.log2 = j)
  (hr : IsNearest r (n * 2 ^ 52 / 2 ^ j : ℚ))
  (hv : v.toModel.unpack = UnpackedFloat.unpack .binary64
    (UnpackedFloat.pack .binary64 (UnpackedFloat.round .binary64 sign (n * 2 ^ 52) (-52))))
include hn hj hr hv

/-- The 53 bits that the sum is rounded to. -/
theorem rational?_round_of_lt (hlt : r < 2 ^ 53) (hmax : j ≤ 1023) :
    rational? v = some (dyadic (sign == .negative) r (j - 52)) := by
  -- In its units the sum has `j` bits more than a mantissa, which are shifted out.
  have hlog : (n * 2 ^ 52).log2 = 52 + j := by rw [log2_mul_two_pow hn.ne', hj, Nat.add_comm]
  have hr' : IsNearest r ((n * 2 ^ 52 : ℕ) / 2 ^ j : ℚ) := by exact_mod_cast hr
  have hlogr := log2_eq_of_isNearest hlog hr' hlt
  -- A number with 52 bits below its highest one is not zero.
  have hpos : 0 < r := by
    by_contra hzero
    rw [Nat.eq_zero_of_not_pos hzero, Nat.log2_zero] at hlogr
    omega
  rw [round_eq_roundWithAccuracy sign hlog (by omega),
    roundWithAccuracy_of_isNearest sign hlog (by omega) hr' hlt hpos,
    unpack_pack_finite hpos hlogr (by omega) (by omega)] at hv
  rw [rational?, decode_of_unpack hv, show (-52 + j : ℤ) = j - 52 by omega]

/-- The sum may also be rounded up to a power of two. -/
theorem rational?_round_of_carry (hcarry : r = 2 ^ 53) (hmax : j ≤ 1022) :
    rational? v = some (dyadic (sign == .negative) r (j - 52)) := by
  have hlog : (n * 2 ^ 52).log2 = 52 + j := by rw [log2_mul_two_pow hn.ne', hj, Nat.add_comm]
  have hr' : IsNearest (2 ^ 53 : ℕ) ((n * 2 ^ 52 : ℕ) / 2 ^ j : ℚ) := by
    rw [← hcarry]
    exact_mod_cast hr
  -- The mantissa that is carried is a power of two, and the exponent goes up by one.
  rw [round_eq_roundWithAccuracy sign hlog (by omega),
    roundWithAccuracy_of_carry sign hlog (by omega) hr',
    unpack_pack_finite _ Nat.log2_two_pow (by omega) (by omega)] at hv
  rw [rational?, decode_of_unpack hv, hcarry, show (-52 + j + 1 : ℤ) = (j - 52) + 1 by omega]
  -- Twice the number with half the power of two is the same magnitude.
  simp only [dyadic, zpow_add_one₀ (two_ne_zero (α := ℚ))]
  cases sign <;> simp [signed] <;> ring

end

/-- What a mantissa is rounded to if one is added `n` places behind it: a half goes to the even one of
    two, and less is lost. -/
def halfUp (n m : Nat) : Nat :=
  if n = 1 then m + m % 2 else m

/-- With one added `n` places behind it, a mantissa is nearest to this. -/
theorem isNearest_halfUp (m : Nat) {n : Nat} (hn : 0 < n) :
    IsNearest (halfUp n m) (m + 1 / 2 ^ n : ℚ) := by
  rw [halfUp]
  split
  case isTrue h =>
    rw [h, pow_one]
    exact isNearest_add_half m
  case isFalse h =>
    -- Two places behind the mantissa or more, one is less than a half of it.
    have hpow : (2 : ℚ) < 2 ^ n := by
      have hlt : 2 ^ 1 < 2 ^ n := Nat.pow_lt_pow_right (by decide) (by omega)
      exact_mod_cast hlt
    have hsmall : (1 / 2 ^ n : ℚ) < 1 / 2 := one_div_lt_one_div_of_lt two_pos hpow
    exact isNearest_of_le_half (by positivity) hsmall.le fun heq => absurd heq hsmall.ne

/-- The multiples of four stay what they are. -/
theorem halfUp_mul_two_pow (m : Nat) {n : Nat} (hn : 0 < n) :
    halfUp n m * 2 ^ n = if 4 ∣ m * 2 ^ n then m * 2 ^ n else m * 2 ^ n + 2 := by
  rw [halfUp]
  -- Only at one place behind the mantissa there is a half, and then the parity of the mantissa
  -- decides.
  by_cases h : n = 1
  · subst h
    rw [if_pos rfl]
    split <;> omega
  · have hdvd : 4 ∣ m * 2 ^ n := dvd_mul_of_dvd_right (pow_dvd_pow 2 (show 2 ≤ n by omega)) m
    rw [if_neg h, if_pos hdvd]

/-- Only the greatest mantissa carries, and only by a half. -/
theorem halfUp_cases {n m : Nat} (hlt : m < 2 ^ 53) :
    halfUp n m < 2 ^ 53 ∨ halfUp n m = 2 ^ 53 ∧ n = 1 := by
  rw [halfUp]
  split <;> omega

/-- Adding one does not take another bit. -/
theorem log2_mul_two_pow_add_one {n m : Nat} (hlow : 2 ^ 52 ≤ m) (hlt : m < 2 ^ 53) (hn : 0 < n) :
    (m * 2 ^ n + 1).log2 = 52 + n := by
  -- The number is even and below the next power of two, so that there is room for one.
  have htwo : 2 ≤ 2 ^ n := Nat.le_self_pow (by omega) 2
  rw [Nat.log2_eq_iff (Nat.succ_ne_zero _)]
  constructor
  · calc 2 ^ (52 + n) = 2 ^ 52 * 2 ^ n := Nat.pow_add 2 52 n
      _ ≤ m * 2 ^ n + 1 := (Nat.mul_le_mul_right _ hlow).trans (Nat.le_succ _)
  · calc m * 2 ^ n + 1 < (m + 1) * 2 ^ n := by
          rw [Nat.succ_mul]
          omega
      _ ≤ 2 ^ 53 * 2 ^ n := Nat.mul_le_mul_right _ hlt
      _ = 2 ^ (52 + n + 1) := by rw [← Nat.pow_add, show 53 + n = 52 + n + 1 by omega]

/-- The 53 bits of a number that is not greater than `2 ^ 53` lose nothing. -/
theorem exists_mul_two_pow_eq {n : Nat} (hpos : 0 < n) (hle : n ≤ 2 ^ 53) :
    ∃ r, n * 2 ^ 52 = 2 ^ n.log2 * r ∧ r < 2 ^ 53 ∧ n.log2 ≤ 53 := by
  obtain ⟨j, hj⟩ : ∃ j, n.log2 = j := ⟨_, rfl⟩
  have hbounds := (Nat.log2_eq_iff hpos.ne').mp hj
  have hmax : j ≤ 53 := (Nat.pow_le_pow_iff_right (by decide)).mp (hbounds.1.trans hle)
  -- The number itself has no more than 53 bits but if it is the power of two.
  obtain ⟨r, hr⟩ : 2 ^ j ∣ n * 2 ^ 52 := by
    by_cases hlt : j ≤ 52
    · exact dvd_mul_of_dvd_right (pow_dvd_pow 2 hlt) _
    · obtain rfl : j = 53 := by omega
      obtain rfl : n = 2 ^ 53 := Nat.le_antisymm hle hbounds.1
      exact ⟨2 ^ 52, Nat.mul_comm _ _⟩
  -- What is left behind the power of two has 53 bits at most.
  have hscaled : 2 ^ j * r < 2 ^ j * 2 ^ 53 := by
    rw [← hr, ← Nat.pow_add]
    calc n * 2 ^ 52 < 2 ^ (j + 1) * 2 ^ 52 := Nat.mul_lt_mul_of_pos_right hbounds.2 (by positivity)
      _ = 2 ^ (j + 53) := by rw [← Nat.pow_add]
  rw [hj]
  exact ⟨r, hr, Nat.lt_of_mul_lt_mul_left hscaled, hmax⟩

/-- From `2 ^ 53` on, one more is a half of the last bit or less, and a half goes to the even
    mantissa. -/
theorem rational?_one_more_of_le {n : Nat} (hv : decode v = .finite negative mantissa n)
    (hn : 0 < n) (hlow : 2 ^ 52 ≤ mantissa) :
    ∃ r e, rational? (if v < 0.0 then v - 1.0 else v + 1.0) = some (dyadic negative r e) ∧
      (r * 2 ^ e : ℚ) =
        (if 4 ∣ mantissa * 2 ^ n then mantissa * 2 ^ n else mantissa * 2 ^ n + 2 : ℕ) := by
  obtain ⟨hbits, -, hmax, -⟩ := decode_bounds hv
  have hlt : mantissa < 2 ^ 53 := hbits
  have hk : (mantissa * 2 ^ (n : ℤ) : ℚ) = (mantissa * 2 ^ n : ℕ) := by
    push_cast
    rw [zpow_natCast]
  obtain ⟨sign, rfl, hu⟩ := exists_unpack_of_decode hv (by omega)
  have hsum := unpack_one_more hu (by omega) hk
  have hj := log2_mul_two_pow_add_one hlow hlt hn
  -- The sum, in units of the last bit of the mantissa.
  have hquotient : ((mantissa * 2 ^ n + 1 : ℕ) * 2 ^ 52 / 2 ^ (52 + n) : ℚ) =
      mantissa + 1 / 2 ^ n := by
    rw [pow_add]
    push_cast
    field_simp
  have hnear := isNearest_halfUp mantissa hn
  rw [← hquotient] at hnear
  have hsucc : 0 < mantissa * 2 ^ n + 1 := Nat.succ_pos _
  have hexp : ((52 + n : ℕ) : ℤ) - 52 = n := by omega
  refine ⟨halfUp n mantissa, n, ?_, ?_⟩
  · -- The mantissa stays below its bound, or is rounded up to it.
    rw [← hexp]
    obtain hrlt | ⟨hcarry, rfl⟩ := halfUp_cases (n := n) hlt
    · exact rational?_round_of_lt hsucc hj hnear hsum hrlt (by omega)
    · exact rational?_round_of_carry hsucc hj hnear hsum hcarry (by decide)
  · rw [zpow_natCast, ← halfUp_mul_two_pow mantissa hn]
    push_cast
    rfl

variable (hv : decode v = .finite negative mantissa exponent) (hm : 0 < mantissa)
include hv hm

/-- One more than a number below `2 ^ 53` is a double. -/
theorem rational?_one_more_of_lt {k : Nat} (he : -52 ≤ exponent)
    (hk : (mantissa * 2 ^ exponent : ℚ) = k) (hlt : k < 2 ^ 53) :
    ∃ r e, rational? (if v < 0.0 then v - 1.0 else v + 1.0) = some (dyadic negative r e) ∧
      (r * 2 ^ e : ℚ) = k + 1 := by
  obtain ⟨sign, rfl, hu⟩ := exists_unpack_of_decode hv hm
  have hsum := unpack_one_more hu he hk
  obtain ⟨r, hr, hrlt, hmax⟩ := exists_mul_two_pow_eq (Nat.succ_pos k) hlt
  generalize hj : (k + 1).log2 = j at hr hmax
  -- The number times `2 ^ 52` is a multiple of the unit, so the quotient is a whole number.
  have hpow : (0 : ℚ) < 2 ^ j := by positivity
  have hcast : ((k + 1 : ℕ) * 2 ^ 52 : ℚ) = 2 ^ j * r := by exact_mod_cast hr
  have hexact : ((k + 1 : ℕ) * 2 ^ 52 / 2 ^ j : ℚ) = (r : ℤ) := by
    rw [hcast, mul_div_cancel_left₀ _ hpow.ne', Int.cast_natCast]
  refine ⟨r, j - 52, rational?_round_of_lt (Nat.succ_pos k) hj ?_ hsum hrlt (by omega), ?_⟩
  · rw [hexact]
    exact isNearest_intCast r
  · rw [zpow_sub₀ two_ne_zero, zpow_natCast, mul_div_assoc', mul_comm, div_eq_iff (by norm_num),
      ← hcast]
    push_cast
    rfl

/-- Every bit of a whole number is worth one or more, but for zeros at the end. -/
theorem le_exponent_of_whole (h : (ceiling mantissa exponent : ℚ) = mantissa * 2 ^ exponent) :
    -52 ≤ exponent := by
  by_contra hlt
  -- A whole number that is not zero is at least one, but 53 bits behind the point are less than
  -- that.
  have hpos : 0 < ceiling mantissa exponent :=
    Nat.pos_of_ne_zero ((ceiling_eq_zero_iff _ _).not.mpr hm.ne')
  have hone : (1 : ℚ) ≤ ceiling mantissa exponent := by exact_mod_cast hpos
  have hbits : mantissa < 2 ^ 53 := (decode_bounds hv).1
  have hcast : (mantissa : ℚ) < 2 ^ 53 := by exact_mod_cast hbits
  have hpow : (2 : ℚ) ^ exponent ≤ 2 ^ (-53 : ℤ) := zpow_le_zpow_right₀ one_le_two (by omega)
  have hsmall : (mantissa * 2 ^ exponent : ℚ) < 2 ^ 53 * 2 ^ (-53 : ℤ) :=
    mul_lt_mul hcast hpow (zpow_pos two_pos _) (by positivity)
  norm_num at hsmall
  linarith

end Verse.Numeric
