import Verse.Proofs.Numeric.Plain

/-!
# Numerals with a fixed number of decimals

A numeral that is written with a fixed number of decimals is stripped of the zeros at its end, and of
its point if nothing is left behind it.  What is left is the plain numeral.

* `fixedText`, `stripZeros`   writing such a numeral, and stripping it
* `stripZeros_append`         what is stripped, and what is not
* `padded`                    the digits of a number, after some zeros
* `exists_plain_fixedText`    what is left is a plain numeral
-/

namespace Verse.Numeric

/-! ## Stripping -/

/-- Strip a numeral with a point of the zeros at its end, and of the point if nothing is left behind
    it. -/
def stripZeros (text : List Char) : List Char :=
  if '.' ∈ text then (text.rdropWhile (· == '0')).rdropWhile (· == '.') else text

/-- Nothing is dropped where the character is not at the end. -/
theorem rdropWhile_eq_self {l : List Char} {c : Char} (h : l.getLast? ≠ some c) :
    l.rdropWhile (· == c) = l := by
  rw [List.rdropWhile_eq_self_iff]
  intro hne hlast
  rw [List.getLast?_eq_some_getLast hne] at h
  exact h (congrArg some (eq_of_beq hlast))

theorem rdropWhile_concat_self (l : List Char) (c : Char) :
    (l ++ [c]).rdropWhile (· == c) = l.rdropWhile (· == c) :=
  List.rdropWhile_concat_pos (· == c) l c (beq_self_eq_true c)

/-- However often the character is at the end, it is dropped as often. -/
theorem rdropWhile_append_replicate (l : List Char) (c : Char) (k : Nat) :
    (l ++ List.replicate k c).rdropWhile (· == c) = l.rdropWhile (· == c) := by
  induction k with
  | zero => rw [List.replicate_zero, List.append_nil]
  | succ k ih =>
    rw [List.replicate_succ', ← List.append_assoc, rdropWhile_concat_self, ih]

/-- Digits do not end with a point. -/
theorem getLast?_ne_point {l : List Char} (h : ∀ c ∈ l, c.isDigit = true) :
    l.getLast? ≠ some '.' := by
  intro hlast
  have hpoint := h '.' (List.mem_of_getLast? hlast)
  cases hpoint

section

variable {whole fraction : List Char} (hdigit : ∀ c ∈ whole ++ fraction, c.isDigit = true)
include hdigit

/-- Of the decimals the zeros at the end are dropped, and the point with them if there are no
    others. -/
theorem stripZeros_append :
    stripZeros (whole ++ '.' :: fraction) = whole ++
      if fraction.rdropWhile (· == '0') = [] then [] else '.' :: fraction.rdropWhile (· == '0') := by
  obtain ⟨k, hk⟩ := exists_rdropWhile_append_zeros fraction
  have hlast := getLast?_rdropWhile_ne fraction '0'
  -- What is kept is in front of what is dropped, so it consists of digits still.
  have hkept : ∀ c ∈ fraction.rdropWhile (· == '0'), c.isDigit = true := by
    intro c hc
    exact hdigit c (List.mem_append_right _ ((List.rdropWhile_prefix _ _).subset hc))
  have hwhole : ∀ c ∈ whole, c.isDigit = true := fun c hc => hdigit c (List.mem_append_left _ hc)
  generalize fraction.rdropWhile (· == '0') = kept at hk hlast hkept
  -- There is a point, and no zero before it is at the end of the text.
  rw [stripZeros, if_pos (by simp), hk, show whole ++ '.' :: (kept ++ List.replicate k '0') =
    whole ++ '.' :: kept ++ List.replicate k '0' by simp, rdropWhile_append_replicate]
  by_cases hnil : kept = []
  · -- The point is left alone, and goes as well.
    have hpoint : (whole ++ ['.']).getLast? ≠ some '0' := by simp
    rw [if_pos hnil, hnil, List.append_nil, rdropWhile_eq_self hpoint, rdropWhile_concat_self,
      rdropWhile_eq_self (getLast?_ne_point hwhole)]
  · -- Neither a zero nor a point is at the end of what is kept.
    have hgetLast : (whole ++ '.' :: kept).getLast? = kept.getLast? := by
      rw [List.getLast?_append_of_ne_nil _ (by simp), List.getLast?_cons_of_ne_nil hnil]
    rw [← hgetLast] at hlast
    have hpoint := getLast?_ne_point hkept
    rw [← hgetLast] at hpoint
    rw [if_neg hnil, rdropWhile_eq_self hlast, rdropWhile_eq_self hpoint]

/-- What is left of a numeral without the zeros at its end. -/
theorem exists_plain_stripZeros (hne : whole ≠ []) (hhead : whole.head? = some '0' → whole = ['0']) :
    ∃ n : Plain, n.text = stripZeros (whole ++ '.' :: fraction) ∧
      n.value = digitsValue 0 (whole ++ fraction) / 10 ^ fraction.length := by
  obtain ⟨k, hk⟩ := exists_rdropWhile_append_zeros fraction
  refine ⟨⟨whole, fraction.rdropWhile (· == '0'), ?_, hne, hhead,
    getLast?_rdropWhile_ne fraction '0'⟩, (stripZeros_append hdigit).symm, ?_⟩
  · intro c hc
    rw [List.mem_append] at hc
    obtain hc | hc := hc
    · exact hdigit c (List.mem_append_left _ hc)
    · exact hdigit c (List.mem_append_right _ ((List.rdropWhile_prefix _ _).subset hc))
  · rw [Plain.value]
    simp only
    -- The zeros that are dropped count for nothing, before the division by a power of ten and
    -- after it.
    generalize fraction.rdropWhile (· == '0') = kept at hk
    rw [hk, ← List.append_assoc, digitsValue_append (whole ++ kept), digitsValue_zeros,
      List.length_append, List.length_replicate, pow_add]
    push_cast
    rw [add_zero]
    field_simp

end

/-! ## Whole numbers -/

/-- A whole number has no point. -/
theorem exists_plain_toDigits (n : Nat) :
    ∃ p : Plain, p.text = stripZeros (Nat.toDigits 10 n) ∧ p.value = n := by
  -- A whole number is not stripped at all, as it may end with zeros that count.
  have hpoint : '.' ∉ Nat.toDigits 10 n := fun hmem => by cases isDigit_toDigits n '.' hmem
  refine ⟨⟨Nat.toDigits 10 n, [], ?_, Nat.toDigits_ne_nil, ?_, (Option.some_ne_none '0').symm⟩,
    ?_, ?_⟩
  · rw [List.append_nil]
    exact isDigit_toDigits n
  · intro hzero
    obtain rfl | hpos := n.eq_zero_or_pos
    · rfl
    · exact absurd hzero (head?_toDigits_ne_zero hpos)
  · rw [Plain.text, if_pos rfl, List.append_nil, stripZeros, if_neg hpoint]
  · rw [Plain.value]
    simp only [List.append_nil, List.length_nil, pow_zero, div_one, digitsValue_toDigits]

/-! ## Decimals -/

/-- The digits of a number, at least so many of them. -/
def padded (places n : Nat) : List Char :=
  List.leftpad places '0' (Nat.toDigits 10 n)

/-- The numeral of `n / 10 ^ decimals`, with just so many decimals and at least one digit before
    them. -/
def fixedText (decimals n : Nat) : List Char :=
  let digits := padded (decimals + 1) n
  let point := digits.length - decimals
  digits.take point ++ if decimals = 0 then [] else '.' :: digits.drop point

/-- A number with digits enough has no zeros in front. -/
theorem padded_eq_toDigits {places n : Nat} (h : places ≤ (Nat.toDigits 10 n).length) :
    padded places n = Nat.toDigits 10 n := by
  rw [padded, List.leftpad, Nat.sub_eq_zero_of_le h, List.replicate_zero, List.nil_append]

/-- Zeros in front of digits are digits as well. -/
theorem isDigit_padded (places n : Nat) : ∀ c ∈ padded places n, c.isDigit = true := by
  intro c hc
  rw [padded, List.leftpad, List.mem_append] at hc
  exact hc.elim (isDigit_zeros c) (isDigit_toDigits n c)

/-- Zeros in front change nothing about the value. -/
theorem digitsValue_padded (places n : Nat) : digitsValue 0 (padded places n) = n := by
  rw [padded, List.leftpad, digitsValue_append, digitsValue_zeros, Nat.mul_zero, Nat.zero_add,
    digitsValue_toDigits]

/-- There are as many digits as asked for, or more. -/
theorem le_length_padded (places n : Nat) : places ≤ (padded places n).length := by
  rw [padded, List.length_leftpad]
  exact Nat.le_max_left _ _

/-- A zero leads only as far as digits are asked for. -/
theorem length_padded_of_head? {places n : Nat} (hpos : 0 < places)
    (h : (padded places n).head? = some '0') : (padded places n).length = places := by
  by_cases hle : (Nat.toDigits 10 n).length ≤ places
  · rw [padded, List.length_leftpad, Nat.max_eq_left hle]
  · -- There is no room for zeros, and the number has more than one digit.
    rw [padded_eq_toDigits (by omega)] at h
    obtain rfl | hn := n.eq_zero_or_pos
    · have hone : (Nat.toDigits 10 0).length = 1 := rfl
      omega
    · exact absurd h (head?_toDigits_ne_zero hn)

/-- A numeral with a fixed number of decimals becomes plain. -/
theorem exists_plain_fixedText (decimals n : Nat) :
    ∃ p : Plain, p.text = stripZeros (fixedText decimals n) ∧ p.value = n / 10 ^ decimals := by
  -- Without decimals there is no point, and the digits are not stripped.
  obtain rfl | hpos := decimals.eq_zero_or_pos
  · obtain ⟨p, htext, hvalue⟩ := exists_plain_toDigits n
    have hfixed : fixedText 0 n = Nat.toDigits 10 n := by
      rw [fixedText, padded_eq_toDigits Nat.length_toDigits_pos]
      simp
    exact ⟨p, by rw [htext, hfixed], by rw [hvalue, pow_zero, div_one]⟩
  · rw [fixedText]
    simp only [if_neg hpos.ne']
    have hdigit := isDigit_padded (decimals + 1) n
    have hvalue := digitsValue_padded (decimals + 1) n
    -- One digit at least is before the point, because there is one more than there are decimals.
    have hlt : decimals < (padded (decimals + 1) n).length := le_length_padded _ _
    have hhead : (padded (decimals + 1) n).head? = some '0' →
        (padded (decimals + 1) n).length = decimals + 1 := length_padded_of_head? (Nat.succ_pos _)
    -- From here on it does not matter that the digits are padded ones.
    generalize padded (decimals + 1) n = digits at hdigit hvalue hlt hhead
    have hsplit : digits.take (digits.length - decimals) ++ digits.drop (digits.length - decimals) =
        digits := List.take_append_drop _ digits
    have hne : digits.take (digits.length - decimals) ≠ [] := by
      rw [Ne, List.take_eq_nil_iff]
      rintro (hzero | rfl)
      · omega
      · simp at hlt
    have hwhole : (digits.take (digits.length - decimals)).head? = some '0' →
        digits.take (digits.length - decimals) = ['0'] := by
      intro hzero
      -- A zero leads only if there are no more digits than were asked for, so one before the
      -- point.
      rw [List.head?_take, if_neg (by omega)] at hzero
      rw [hhead hzero, Nat.add_sub_cancel_left]
      cases digits with
      | nil => cases hzero
      | cons c l =>
        rw [Option.some.inj hzero]
        rfl
    have hplain := exists_plain_stripZeros (by rwa [hsplit]) hne hwhole
    rwa [hsplit, hvalue, List.length_drop, Nat.sub_sub_self hlt.le] at hplain

end Verse.Numeric
