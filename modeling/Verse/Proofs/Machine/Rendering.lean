import Verse.Proofs.Machine.March
import Verse.Proofs.Numeric.Fixed
import Verse.Proofs.Numeric.Significant
import Verse.Proofs.Numeric.Value
import Verse.Numeric.General

/-!
# What `Count` prints

A number is rounded to six significant digits, and the power of ten of the first of them decides
whether it is written as a plain numeral or with an exponent.  The digits are those of the number
after rounding in either form, also where rounding carries into the next power of ten.

* `exists_plain_layOut`             six digits around a point are a plain numeral
* `exponentDigits_eq`               an exponent has at least two digits
* `count_prints_six_digits`         the text of every finite number but zero
-/

namespace Verse

namespace Numeric

/-! ## Six digits -/

section

variable {d : Nat} (hlow : 10 ^ 5 ≤ d) (hhigh : d < 10 ^ 6)
include hlow hhigh

/-- Numbers with six digits have six digits. -/
theorem length_toDigits_six : (Nat.toDigits 10 d).length = 6 := by
  have hle :=
    (Nat.length_toDigits_le_iff (b := 10) (n := d) (k := 6) (by decide) (by decide)).mpr hhigh
  have hlt :=
    (Nat.length_toDigits_le_iff (b := 10) (n := d) (k := 5) (by decide) (by decide)).not.mpr
      (not_lt.mpr hlow)
  omega

/-- Six digits with a point after the first `point` of them, but for the zeros at the end. -/
theorem exists_plain_layOut (point : Int) :
    ∃ n : Plain, positional (strippedDigits d) point = String.ofList n.text ∧
      n.value = d * 10 ^ (point - 6) := by
  obtain ⟨htrimmed, k, hk⟩ := trimmed_strippedDigits (n := d) (by omega)
  obtain ⟨n, htext, hvalue⟩ := exists_plain_positional htrimmed point
  refine ⟨n, htext, hvalue.trans ?_⟩
  -- The zeros that are stripped account for the power of ten that is lost with them.
  have hlength := length_toDigits_six hlow hhigh
  have hdigits := digitsValue_toDigits d
  rw [hk, List.length_append, List.length_replicate] at hlength
  rw [hk, digitsValue_append, digitsValue_zeros, List.length_replicate, Nat.add_zero] at hdigits
  have hcast : (d : ℚ) = 10 ^ (k : Int) * digitsValue 0 (strippedDigits d) := by
    rw [zpow_natCast]
    exact_mod_cast hdigits.symm
  rw [hcast, mul_comm ((10 : ℚ) ^ (k : Int)), mul_assoc, ← zpow_add₀ (by norm_num)]
  congr 2
  omega

end

/-! ## Exponents -/

/-- The sign of an exponent and its digits, at least two of them. -/
def exponentText (e : Int) : List Char :=
  (if e < 0 then '-' else '+') :: padded 2 e.natAbs

/-- The digits of an exponent are padded to two of them. -/
theorem exponentDigits_eq (n : Nat) : exponentDigits n = String.ofList (padded 2 n) := by
  have hone := Nat.length_toDigits_le_iff (b := 10) (n := n) (k := 1) (by decide) (by decide)
  have hpos : 0 < (Nat.toDigits 10 n).length := Nat.length_toDigits_pos
  rw [exponentDigits, Nat.toString_eq_ofList_toDigits]
  split
  case isTrue hlt =>
    have hlength : 2 - (Nat.toDigits 10 n).length = 1 := by
      have := hone.mpr hlt
      omega
    rw [padded, List.leftpad, hlength, String.ofList_append]
    rfl
  case isFalse hge =>
    have hlength : 2 ≤ (Nat.toDigits 10 n).length := by
      have := hone.not.mpr hge
      omega
    rw [padded_eq_toDigits hlength]

/-- The scientific layout has the point after the first digit, and the exponent behind it. -/
theorem scientific_eq {digits text : List Char} (h : positional digits 1 = String.ofList text)
    (e : Int) : scientific digits e = String.ofList (text ++ 'e' :: exponentText e) := by
  rw [scientific, h, exponentDigits_eq, exponentText]
  apply String.toList_inj.mp
  split <;> simp

/-! ## The text of a number -/

/-- A minus sign for a negative number. -/
def signText (q : ℚ) : List Char :=
  if q < 0 then ['-'] else []

/-- A sign is put in front of what is negative. -/
theorem withSign_eq {negative : Bool} {q : ℚ} (h : q < 0 ↔ negative = true) (text : List Char) :
    withSign negative (String.ofList text) = String.ofList (signText q ++ text) := by
  rw [withSign, signText]
  apply String.toList_inj.mp
  cases negative with
  | false => simp [h]
  | true => simp [h]

/-- The text of a number is its sign and the layout of its rounded magnitude. -/
theorem general_eq {v : Float} {q : ℚ} (hq : rational? v = some q) (hne : q ≠ 0) :
    ∃ (negative : Bool) (d : Nat) (e : Int), (q < 0 ↔ negative = true) ∧ Rounded 5 |q| d e ∧
      general v = withSign negative (layOut d e) := by
  obtain ⟨negative, mantissa, exponent, hv, rfl⟩ := rational?_eq_some_iff.mp hq
  have hm : 0 < mantissa := Nat.pos_of_ne_zero (dyadic_eq_zero_iff.not.mp hne)
  have hnum : 0 < (fractionOf mantissa exponent).1 := by
    rw [fractionOf, Nat.shiftLeft_eq]
    exact Nat.mul_pos hm (Nat.two_pow_pos _)
  have hrounded := rounded_significant 5 hnum (fractionOf_den_pos mantissa exponent)
  rw [fractionOf_eq, ← abs_dyadic negative] at hrounded
  refine ⟨negative, _, _, dyadic_neg_iff hm, hrounded, ?_⟩
  rw [general, hv]
  exact if_neg hm.ne'

end Numeric

namespace Machine

open Numeric

/-- `Count` prints the text of the number at the delegate, and does no more than draw it. -/
theorem dispatch_count {m : Machine} {value : Float} (h : m.operand? = some value) :
    ∃ generator, m.dispatch .count =
      (.proceed, { m with generator }.record (.printed (general value))) := by
  obtain ⟨generator, hgenerator⟩ := m.exists_generator_readAt m.delegate
  have hread : m.readAt m.delegate = (some value, { m with generator }) := Prod.ext h hgenerator
  refine ⟨generator, ?_⟩
  show (Signal.proceed, m.count) = _
  rw [count, hread]

/-- What `Count` prints for every finite number but zero.

    The number is rounded to six significant digits `d`, with the leading power of ten `e`, and there
    is only one way to round it.  The text is its sign and the plain numeral of `d · 10 ^ (e - 5)`, or
    of `d · 10 ^ (-5)` with `e` as the exponent.  There is only one plain numeral of a number.  It is
    what is left without the zeros at the end of the text with five digits after the leading one,
    and for the text without an exponent it is also that of the number itself, rounded once more to
    as many decimals. -/
theorem count_prints_six_digits {value : Float} {q : ℚ} (hq : rational? value = some q)
    (hne : q ≠ 0) :
    ∃ (d : Nat) (e : Int), Rounded 5 |q| d e ∧
      (∀ d' e', Rounded 5 |q| d' e' → d' = d ∧ e' = e) ∧
      (-4 ≤ e ∧ e < 6 → ∃ n : Plain, general value = String.ofList (signText q ++ n.text) ∧
        n.value = d * 10 ^ (e - 5) ∧ (∀ n' : Plain, n'.value = n.value → n' = n) ∧
        IsNearest d (|q| * 10 ^ (5 - e)) ∧ n.text = stripZeros (fixedText (5 - e).toNat d)) ∧
      (¬ (-4 ≤ e ∧ e < 6) → ∃ n : Plain,
        general value = String.ofList (signText q ++ n.text ++ 'e' :: exponentText e) ∧
        n.value = d * 10 ^ (-5 : Int) ∧ (∀ n' : Plain, n'.value = n.value → n' = n) ∧
        n.text = stripZeros (fixedText 5 d)) ∧
      ∀ m : Machine, m.operand? = some value → ∃ generator, m.dispatch .count =
        (.proceed, { m with generator }.record (.printed (general value))) := by
  obtain ⟨negative, d, e, hsign, hrounded, hgeneral⟩ := general_eq hq hne
  have hlow := hrounded.le_digits
  have hhigh := hrounded.digits_lt
  refine ⟨d, e, hrounded, fun d' e' h => h.unique hrounded, fun hfixed => ?_, fun hscientific => ?_,
    fun m => dispatch_count⟩
  · -- Without an exponent: the numeral is that of the rounded number.
    obtain ⟨n, htext, hvalue⟩ := exists_plain_layOut hlow hhigh (e + 1)
    obtain ⟨n', htext', hvalue'⟩ := exists_plain_fixedText (5 - e).toNat d
    have hplace : e + 1 - 6 = e - 5 := by omega
    rw [hplace] at hvalue
    have hdecimals : (d : ℚ) / 10 ^ (5 - e).toNat = d * 10 ^ (e - 5) := by
      rw [div_eq_mul_inv, ← zpow_natCast, ← zpow_neg]
      congr 2
      omega
    -- There is only one numeral of a number, so this is the text with all its decimals, stripped.
    have hsame : n' = n := Plain.eq_of_value_eq (by rw [hvalue, hvalue', hdecimals])
    refine ⟨n, ?_, hvalue, fun n' => Plain.eq_of_value_eq, ?_, by rw [← htext', hsame]⟩
    · rw [hgeneral, layOut]
      simp only [if_pos hfixed, htext, withSign_eq hsign]
    · have hnearest := hrounded.isNearest
      rwa [div_eq_mul_inv, ← zpow_neg, neg_sub] at hnearest
  · -- With an exponent, whose mantissa has five decimals.
    obtain ⟨n, htext, hvalue⟩ := exists_plain_layOut hlow hhigh 1
    obtain ⟨n', htext', hvalue'⟩ := exists_plain_fixedText 5 d
    have hplace : (1 : Int) - 6 = -5 := by omega
    rw [hplace] at hvalue
    have hsame : n' = n := by
      apply Plain.eq_of_value_eq
      rw [hvalue, hvalue', div_eq_mul_inv, zpow_neg]
      rfl
    refine ⟨n, ?_, hvalue, fun n' => Plain.eq_of_value_eq, by rw [← htext', hsame]⟩
    rw [hgeneral, layOut]
    simp only [if_neg hscientific, scientific_eq htext, withSign_eq hsign, List.append_assoc]

/-- A half below a million is rounded to the million, because its digits are even. -/
theorem rounded_million : Rounded 5 (1999999 / 2) 100000 6 where
  exists_nearest := by
    refine ⟨5, 1000000, by norm_num, by norm_num, ⟨?_, fun _ => ⟨500000, rfl⟩⟩, by norm_num⟩
    rw [abs_le]
    norm_num
  le_digits := by norm_num
  digits_lt := by norm_num

/-- The text of that half shows the exponent six. -/
theorem count_prints_six_digits_million : general 999999.5 = "1e+06" := by
  have hdecode : decode 999999.5 = .finite false 8589930297032704 (-33) := by decide +kernel
  have hq : rational? 999999.5 = some (1999999 / 2) := by
    rw [rational?, hdecode]
    norm_num [dyadic, signed]
  obtain ⟨d, e, -, hunique, -, hscientific, -⟩ := count_prints_six_digits hq (by norm_num)
  have habs : |(1999999 / 2 : ℚ)| = 1999999 / 2 := abs_of_pos (by norm_num)
  rw [habs] at hunique
  obtain ⟨rfl, rfl⟩ := hunique 100000 6 rounded_million
  obtain ⟨n, hgeneral, -, -, htext⟩ := hscientific (by norm_num)
  have hpositive : signText (1999999 / 2) = [] := if_neg (by norm_num)
  have hone : stripZeros (fixedText 5 100000) = ['1'] := by decide +kernel
  rw [hgeneral, hpositive, htext, hone]
  decide +kernel

end Machine

end Verse
