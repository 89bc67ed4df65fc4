import Mathlib
import Verse.Numeric.Decimal
import Verse.Numeric.Reading

/-!
# Plain decimal numerals

A plain numeral has digits, and a point only if digits follow it.  It does not begin with a zero
before other digits of its whole part, nor end with a zero behind the point.  There is one such
numeral for a number, so that it does not matter by which way it is written.

* `Plain`                    a plain numeral, and the number that it stands for
* `Plain.eq_of_value_eq`     two numerals of one number are the same
* `exists_plain_positional`  digits that are laid out around a point are a plain numeral
* `trimmed_strippedDigits`   the digits of a number without the zeros at its end
-/

namespace Verse.Numeric

/-! ## Digits -/

section

variable {l l' : List Char} {c : Char}

/-- The digits are the characters from 48 to 57. -/
theorem toNat_of_isDigit (h : c.isDigit = true) : 48 ≤ c.toNat ∧ c.toNat ≤ 57 := by
  simp only [Char.isDigit, Bool.and_eq_true, decide_eq_true_eq] at h
  exact h

/-- Digits in front of others count for the power of ten with as many zeros as there are others. -/
theorem digitsValue_append (l l' : List Char) :
    digitsValue 0 (l ++ l') = 10 ^ l'.length * digitsValue 0 l + digitsValue 0 l' := by
  show Nat.ofDigitChars 10 (l ++ l') 0 =
    10 ^ l'.length * Nat.ofDigitChars 10 l 0 + Nat.ofDigitChars 10 l' 0
  rw [Nat.ofDigitChars_append, Nat.ofDigitChars_eq_ofDigitChars_zero]

theorem digitsValue_singleton (c : Char) : digitsValue 0 [c] = c.toNat - 48 := by
  rw [digitsValue, List.foldl_cons, List.foldl_nil, Nat.mul_zero, Nat.zero_add]

/-- Zeros are worth nothing, however many there are. -/
theorem digitsValue_zeros (n : Nat) : digitsValue 0 (List.replicate n '0') = 0 := by
  show Nat.ofDigitChars 10 (List.replicate n '0') 0 = 0
  rw [Nat.ofDigitChars_replicate_zero, Nat.mul_zero]

theorem digitsValue_toDigits (n : Nat) : digitsValue 0 (Nat.toDigits 10 n) = n :=
  Nat.ofDigitChars_ten_toDigits

theorem isDigit_toDigits (n : Nat) : ∀ c ∈ Nat.toDigits 10 n, c.isDigit = true :=
  fun _ hc => Nat.isDigit_of_mem_toDigits (by decide) (by decide) hc

/-- A number is written with its digits. -/
theorem toList_toString (n : Nat) : (toString n).toList = Nat.toDigits 10 n := by
  rw [Nat.toString_eq_ofList_toDigits, String.toList_ofList]

theorem isDigit_toString (n : Nat) : ∀ c ∈ (toString n).toList, c.isDigit = true := by
  rw [toList_toString]
  exact isDigit_toDigits n

/-- A number is read back from its digits. -/
theorem digitsValue_toString (n : Nat) : digitsValue 0 (toString n).toList = n := by
  rw [toList_toString, digitsValue_toDigits]

/-- The value of some digits is below the power of ten with as many zeros. -/
theorem digitsValue_lt (h : ∀ c ∈ l, c.isDigit = true) : digitsValue 0 l < 10 ^ l.length := by
  induction l with
  | nil => decide
  | cons c l ih =>
    have hc := toNat_of_isDigit (h c (by simp))
    have hl := ih fun d hd => h d (by simp [hd])
    -- The leading digit is at most nine, and what follows it stays below its power of ten.
    rw [← List.singleton_append, digitsValue_append, digitsValue_singleton, List.length_append,
      List.length_singleton, Nat.add_comm 1, Nat.pow_succ]
    have : 10 ^ l.length * (c.toNat - 48) ≤ 10 ^ l.length * 9 := Nat.mul_le_mul_left _ (by omega)
    omega

/-- A leading digit that is not zero tells how many digits there are. -/
theorem le_digitsValue_cons (hc : c.isDigit = true) (hne : c ≠ '0') :
    10 ^ l.length ≤ digitsValue 0 (c :: l) := by
  have hbounds := toNat_of_isDigit hc
  have hpos : 0 < c.toNat - 48 := by
    -- The character of zero is the only digit that is worth nothing.
    have : c.toNat ≠ '0'.toNat := fun h => hne (Char.toNat_inj.mp h)
    have : '0'.toNat = 48 := rfl
    omega
  rw [← List.singleton_append, digitsValue_append, digitsValue_singleton]
  exact (Nat.le_mul_of_pos_right _ hpos).trans (Nat.le_add_right _ _)

/-- As many digits of the same value are the same digits. -/
theorem eq_of_digitsValue_eq (h : ∀ c ∈ l, c.isDigit = true) (h' : ∀ c ∈ l', c.isDigit = true)
    (hlength : l.length = l'.length) (hvalue : digitsValue 0 l = digitsValue 0 l') : l = l' := by
  induction l generalizing l' with
  | nil => exact (List.length_eq_zero_iff.mp hlength.symm).symm
  | cons c l ih =>
    cases l' with
    | nil => cases hlength
    | cons c' l' =>
      have hlength' : l.length = l'.length := Nat.succ.inj hlength
      have hlt := digitsValue_lt fun d hd => h d (List.mem_cons_of_mem c hd)
      have hlt' := digitsValue_lt fun d hd => h' d (List.mem_cons_of_mem c' hd)
      have hc := toNat_of_isDigit (h c (by simp))
      have hc' := toNat_of_isDigit (h' c' (by simp))
      -- Both numbers are a leading digit times the same power of ten, and a rest below that
      -- power.
      rw [← List.singleton_append, ← List.singleton_append (x := c'), digitsValue_append,
        digitsValue_append, digitsValue_singleton, digitsValue_singleton, hlength'] at hvalue
      rw [hlength'] at hlt
      -- The leading digit is the quotient, and the others are the rest.
      have hleading : c.toNat - 48 = c'.toNat - 48 := by
        have hdiv := congrArg (· / 10 ^ l'.length) hvalue
        simpa [Nat.mul_add_div, Nat.div_eq_of_lt hlt, Nat.div_eq_of_lt hlt'] using hdiv
      rw [hleading] at hvalue
      have hrest := ih (fun d hd => h d (List.mem_cons_of_mem c hd))
        (fun d hd => h' d (List.mem_cons_of_mem c' hd)) hlength' (Nat.add_left_cancel hvalue)
      have hchar : c = c' := Char.toNat_inj.mp (by omega)
      rw [hrest, hchar]

end

/-! ## Numerals -/

/-- A plain decimal numeral: the digits before the point and those behind it. -/
structure Plain where
  whole : List Char
  fraction : List Char
  isDigit : ∀ c ∈ whole ++ fraction, c.isDigit = true
  whole_ne_nil : whole ≠ []
  /-- A zero leads only if it is all there is before the point. -/
  eq_zero_of_head : whole.head? = some '0' → whole = ['0']
  /-- No zero stands at the end behind the point. -/
  getLast_ne_zero : fraction.getLast? ≠ some '0'

namespace Plain

/-- The text of a numeral.  There is no point when no digit follows it. -/
def text (n : Plain) : List Char :=
  n.whole ++ if n.fraction = [] then [] else '.' :: n.fraction

/-- The number that a numeral stands for. -/
def value (n : Plain) : ℚ :=
  digitsValue 0 (n.whole ++ n.fraction) / 10 ^ n.fraction.length

variable {n n' : Plain}

/-- The digits before the point are digits. -/
theorem isDigit_whole (n : Plain) : ∀ c ∈ n.whole, c.isDigit = true :=
  fun c hc => n.isDigit c (List.mem_append_left _ hc)

/-- The digits behind the point are digits. -/
theorem isDigit_fraction (n : Plain) : ∀ c ∈ n.fraction, c.isDigit = true :=
  fun c hc => n.isDigit c (List.mem_append_right _ hc)

/-- Only the character of zero is worth nothing. -/
theorem toNat_ne_of_ne_zero {c : Char} (h : c ≠ '0') : c.toNat ≠ 48 :=
  fun heq => h (Char.toNat_inj.mp heq)

/-- The digits behind the point do not end with a zero. -/
theorem not_dvd_digitsValue (h : n.fraction ≠ []) :
    ¬ 10 ∣ digitsValue 0 (n.whole ++ n.fraction) := by
  -- The last digit alone decides whether ten divides the number.
  obtain ⟨l, c, hl⟩ := (List.eq_nil_or_concat n.fraction).resolve_left h
  rw [List.concat_eq_append] at hl
  have hne : c ≠ '0' := by
    have hlast := n.getLast_ne_zero
    rw [hl, List.getLast?_concat] at hlast
    exact fun heq => hlast (congrArg some heq)
  have hbounds := toNat_of_isDigit (n.isDigit_fraction c (by simp [hl]))
  have hchar := toNat_ne_of_ne_zero hne
  rw [hl, ← List.append_assoc, digitsValue_append, digitsValue_singleton, List.length_singleton]
  omega

/-- As many digits as the value takes. -/
theorem whole_length_eq (h : digitsValue 0 n.whole = digitsValue 0 n'.whole) :
    n.whole.length ≤ n'.whole.length := by
  obtain ⟨c, l, hl⟩ := List.exists_cons_of_ne_nil n.whole_ne_nil
  have hpos : 0 < n'.whole.length := List.length_pos_of_ne_nil n'.whole_ne_nil
  by_cases hzero : c = '0'
  · -- A leading zero stands alone, and there is no number without a digit.
    have hone := n.eq_zero_of_head (by rw [hl, hzero]; rfl)
    rw [hone]
    exact hpos
  · have hc : c.isDigit = true := n.isDigit_whole c (by simp [hl])
    -- Otherwise the leading digit says how great the number is, and so how many digits it takes.
    have hlow := le_digitsValue_cons (l := l) hc hzero
    have hhigh := digitsValue_lt n'.isDigit_whole
    rw [← hl, h] at hlow
    have hlt := (Nat.pow_lt_pow_iff_right (by decide)).mp (hlow.trans_lt hhigh)
    rw [hl, List.length_cons]
    omega

/-- The digits of two numerals of one value, with as many of them behind the point. -/
theorem digitsValue_eq_of_value_eq (h : n.value = n'.value)
    (hlength : n.fraction.length = n'.fraction.length) :
    digitsValue 0 (n.whole ++ n.fraction) = digitsValue 0 (n'.whole ++ n'.fraction) := by
  rw [value, value, hlength] at h
  -- The decimals are the same in number, so the two divisors are.
  have hpos : (10 : ℚ) ^ n'.fraction.length ≠ 0 := by positivity
  exact_mod_cast (div_left_inj' hpos).mp h

/-- A number takes no more decimals than its numeral has. -/
theorem length_fraction_le (h : n.value = n'.value) :
    n.fraction.length ≤ n'.fraction.length := by
  by_contra hlt
  obtain ⟨k, hk⟩ := Nat.exists_eq_add_of_lt (not_le.mp hlt)
  have hne : n.fraction ≠ [] := by
    rintro hnil
    rw [hnil] at hk
    simp at hk
  -- With fewer decimals, the numeral on the left is a multiple of ten.
  apply not_dvd_digitsValue hne
  have hpos : (10 : ℚ) ^ n'.fraction.length ≠ 0 := by positivity
  have hvalue : digitsValue 0 (n.whole ++ n.fraction) =
      10 ^ (k + 1) * digitsValue 0 (n'.whole ++ n'.fraction) := by
    rw [value, value, hk, add_assoc, pow_add] at h
    field_simp at h
    exact_mod_cast h
  rw [hvalue]
  exact dvd_mul_of_dvd_left (dvd_pow_self 10 k.succ_ne_zero) _

/-- There is only one numeral of a number. -/
theorem eq_of_value_eq (h : n.value = n'.value) : n = n' := by
  have hlength : n.fraction.length = n'.fraction.length :=
    Nat.le_antisymm (length_fraction_le h) (length_fraction_le h.symm)
  have hdigits := digitsValue_eq_of_value_eq h hlength
  -- What is before the point is the quotient, and what is behind it is the remainder.
  rw [digitsValue_append, digitsValue_append, hlength] at hdigits
  have hlt := digitsValue_lt n.isDigit_fraction
  have hlt' := digitsValue_lt n'.isDigit_fraction
  rw [hlength] at hlt
  have hwhole : digitsValue 0 n.whole = digitsValue 0 n'.whole := by
    have hdiv := congrArg (· / 10 ^ n'.fraction.length) hdigits
    simpa [Nat.mul_add_div, Nat.div_eq_of_lt hlt, Nat.div_eq_of_lt hlt'] using hdiv
  rw [hwhole] at hdigits
  have hwhole' : n.whole = n'.whole :=
    eq_of_digitsValue_eq n.isDigit_whole n'.isDigit_whole
      (Nat.le_antisymm (whole_length_eq hwhole) (whole_length_eq hwhole.symm)) hwhole
  have hfraction : n.fraction = n'.fraction :=
    eq_of_digitsValue_eq n.isDigit_fraction n'.isDigit_fraction hlength
      (Nat.add_left_cancel hdigits)
  -- The other fields of a numeral are proofs.
  cases n
  cases n'
  simp only at hwhole' hfraction
  subst hwhole' hfraction
  rfl

end Plain

/-! ## Digits laid out around a point -/

/-- Digits that neither begin nor end with a zero. -/
structure Trimmed (digits : List Char) : Prop where
  isDigit : ∀ c ∈ digits, c.isDigit = true
  ne_nil : digits ≠ []
  head_ne_zero : digits.head? ≠ some '0'
  getLast_ne_zero : digits.getLast? ≠ some '0'

/-- Zeros are digits. -/
theorem isDigit_zeros {n : Nat} : ∀ c ∈ List.replicate n '0', c.isDigit = true := by
  intro c hc
  rw [(List.mem_replicate.mp hc).2]
  rfl

section

variable {digits : List Char} (h : Trimmed digits)
include h

/-- Digits behind the point, after some zeros. -/
theorem Trimmed.exists_plain_decimals (k : Nat) :
    ∃ n : Plain, n.text = '0' :: '.' :: List.replicate k '0' ++ digits ∧
      n.value = digitsValue 0 digits * 10 ^ (-k - digits.length : Int) := by
  have hne := h.ne_nil
  refine ⟨⟨['0'], List.replicate k '0' ++ digits, ?_, by simp, fun _ => rfl, ?_⟩, ?_, ?_⟩
  · -- The zero before the point, those behind it, and the digits themselves.
    intro c hc
    rw [List.mem_append, List.mem_append, List.mem_singleton] at hc
    obtain rfl | hc | hc := hc
    · rfl
    · exact isDigit_zeros c hc
    · exact h.isDigit c hc
  · rw [List.getLast?_append_of_ne_nil _ hne]
    exact h.getLast_ne_zero
  · simp [Plain.text, hne]
  · -- The zeros in front are worth nothing, so only the place of the digits matters.
    have hzeros : ['0'] ++ List.replicate k '0' = List.replicate (k + 1) '0' := rfl
    have hvalue : digitsValue 0 (['0'] ++ (List.replicate k '0' ++ digits)) =
        digitsValue 0 digits := by
      rw [← List.append_assoc, hzeros, digitsValue_append, digitsValue_zeros, Nat.mul_zero,
        Nat.zero_add]
    rw [Plain.value, hvalue, List.length_append, List.length_replicate,
      show (-k - digits.length : Int) = -((k + digits.length : ℕ) : Int) by omega, zpow_neg,
      zpow_natCast, div_eq_mul_inv]

/-- Digits before the point, and some zeros after them. -/
theorem Trimmed.exists_plain_zeros (k : Nat) :
    ∃ n : Plain, n.text = digits ++ List.replicate k '0' ∧
      n.value = digitsValue 0 digits * 10 ^ (k : Int) := by
  have hne := h.ne_nil
  refine ⟨⟨digits ++ List.replicate k '0', [], ?_, by simp [hne], ?_,
    (Option.some_ne_none '0').symm⟩, ?_, ?_⟩
  · intro c hc
    rw [List.append_nil, List.mem_append] at hc
    exact hc.elim (h.isDigit c) (isDigit_zeros c)
  · intro hzero
    rw [List.head?_append_of_ne_nil _ hne] at hzero
    exact absurd hzero h.head_ne_zero
  · -- There is no point where nothing is behind it.
    simp [Plain.text]
  · rw [Plain.value]
    simp only [List.append_nil, digitsValue_append, digitsValue_zeros, List.length_replicate,
      List.length_nil, zpow_natCast]
    push_cast
    ring

/-- Digits on either side of the point. -/
theorem Trimmed.exists_plain_split {k : Nat} (hk : 0 < k) (hlt : k < digits.length) :
    ∃ n : Plain, n.text = digits.take k ++ '.' :: digits.drop k ∧
      n.value = digitsValue 0 digits * 10 ^ (k - digits.length : Int) := by
  -- The point is within the digits, so that there are some on both sides of it.
  have htake : digits.take k ++ digits.drop k = digits := List.take_append_drop k digits
  have hdrop : digits.drop k ≠ [] := by
    rw [Ne, List.drop_eq_nil_iff]
    omega
  refine ⟨⟨digits.take k, digits.drop k, ?_, ?_, ?_, ?_⟩, ?_, ?_⟩
  · rw [htake]
    exact h.isDigit
  · rw [Ne, List.take_eq_nil_iff]
    exact fun hnil => hnil.elim hk.ne' h.ne_nil
  · intro hzero
    rw [List.head?_take, if_neg hk.ne'] at hzero
    exact absurd hzero h.head_ne_zero
  · rw [List.getLast?_drop, if_neg (by omega)]
    exact h.getLast_ne_zero
  · rw [Plain.text, if_neg hdrop]
  · rw [Plain.value]
    simp only [htake, List.length_drop]
    rw [show (k - digits.length : Int) = -((digits.length - k : ℕ) : Int) by omega, zpow_neg,
      zpow_natCast, div_eq_mul_inv]

/-- Digits with a point after the first `point` of them are a plain numeral. -/
theorem exists_plain_positional (point : Int) :
    ∃ n : Plain, positional digits point = String.ofList n.text ∧
      n.value = digitsValue 0 digits * 10 ^ (point - digits.length) := by
  rw [positional]
  dsimp only
  split
  -- The point is before all digits, after them, or within.
  case isTrue hle =>
    obtain ⟨k, rfl⟩ : ∃ k : Nat, point = -k := ⟨(-point).toNat, by omega⟩
    obtain ⟨n, htext, hvalue⟩ := h.exists_plain_decimals k
    have hzeros : (-(-(k : Int))).toNat = k := by omega
    exact ⟨n, by rw [htext, hzeros], hvalue⟩
  case isFalse hpos =>
    obtain ⟨k, rfl⟩ := Int.eq_ofNat_of_zero_le (not_le.mp hpos).le
    split
    case isTrue hle =>
      obtain ⟨j, rfl⟩ : ∃ j, k = digits.length + j := ⟨k - digits.length, by omega⟩
      obtain ⟨n, htext, hvalue⟩ := h.exists_plain_zeros j
      have hzeros : ((digits.length + j : ℕ) : Int) - digits.length = j := by omega
      exact ⟨n, by rw [htext, hzeros, Int.toNat_natCast], by rw [hvalue, hzeros]⟩
    case isFalse hlt =>
      obtain ⟨n, htext, hvalue⟩ := h.exists_plain_split (k := k) (by omega) (by omega)
      exact ⟨n, by rw [htext, Int.toNat_natCast], hvalue⟩

end

/-! ## Zeros at the end -/

/-- Zeros are all that is dropped. -/
theorem exists_rdropWhile_append_zeros (l : List Char) :
    ∃ k, l = l.rdropWhile (· == '0') ++ List.replicate k '0' := by
  refine ⟨(l.rtakeWhile (· == '0')).length, ?_⟩
  have hzeros : l.rtakeWhile (· == '0') = List.replicate (l.rtakeWhile (· == '0')).length '0' :=
    List.eq_replicate_iff.mpr
      ⟨rfl, fun c hc => eq_of_beq (List.mem_rtakeWhile_imp (p := (· == '0')) hc)⟩
  rw [← hzeros, List.rdropWhile_append_rtakeWhile]

/-- What is left has no such character at its end. -/
theorem getLast?_rdropWhile_ne (l : List Char) (c : Char) :
    (l.rdropWhile (· == c)).getLast? ≠ some c := by
  intro hlast
  by_cases hnil : l.rdropWhile (· == c) = []
  · rw [hnil] at hlast
    cases hlast
  · rw [List.getLast?_eq_some_getLast hnil] at hlast
    have hnot := List.rdropWhile_last_not (· == c) l hnil
    rw [Option.some.inj hlast] at hnot
    exact hnot (beq_self_eq_true c)

/-- A number that is not zero has no zero in front. -/
theorem head?_toDigits_ne_zero {n : Nat} (h : 0 < n) : (Nat.toDigits 10 n).head? ≠ some '0' := by
  induction n using Nat.strongRecOn with
  | _ n ih =>
    rw [Nat.toDigits_eq_if (by decide)]
    split
    case isTrue hlt => simpa using h.ne'
    -- Its leading digit is that of a tenth of it.
    case isFalse hge =>
      rw [List.head?_append_of_ne_nil _ Nat.toDigits_ne_nil]
      exact ih (n / 10) (by omega) (by omega)

/-- The digits of a number without the zeros at its end. -/
theorem trimmed_strippedDigits {n : Nat} (h : 0 < n) :
    Trimmed (strippedDigits n) ∧
      ∃ k, Nat.toDigits 10 n = strippedDigits n ++ List.replicate k '0' := by
  show Trimmed ((Nat.toDigits 10 n).rdropWhile (· == '0')) ∧ ∃ k, Nat.toDigits 10 n =
    (Nat.toDigits 10 n).rdropWhile (· == '0') ++ List.replicate k '0'
  obtain ⟨k, hk⟩ := exists_rdropWhile_append_zeros (Nat.toDigits 10 n)
  have hhead := head?_toDigits_ne_zero h
  have hdigit := isDigit_toDigits n
  have hlast := getLast?_rdropWhile_ne (Nat.toDigits 10 n) '0'
  have hne : (Nat.toDigits 10 n).rdropWhile (· == '0') ≠ [] := by
    -- A number whose digits are all zeros would have a zero in front.
    intro hnil
    rw [hnil, List.nil_append] at hk
    cases k with
    | zero => exact Nat.toDigits_ne_nil hk
    | succ k => exact hhead (by rw [hk]; rfl)
  refine ⟨⟨fun c hc => ?_, hne, ?_, hlast⟩, k, hk⟩
  · exact hdigit c (by rw [hk]; exact List.mem_append_left _ hc)
  · rwa [hk, List.head?_append_of_ne_nil _ hne] at hhead

end Verse.Numeric
