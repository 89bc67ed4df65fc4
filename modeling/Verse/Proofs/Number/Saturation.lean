import Verse.Proofs.Number.Addends
import Verse.Proofs.Number.Stage

/-!
# Sums that do not fit a word

The arithmetic of number groups stops at the greatest 64-bit word.  The products of a group stay
far below it: a term never gets past `9999 · 10 ^ 15`.  The last pass, however, adds up as many
terms as it is given, so that a long group can reach the greatest word, where its number stays.

* `coincide_addends`              the first four passes never reach the greatest word
* `combine_saturating`            a number is the exact one, or the greatest word
* `only_long_groups_saturate`     how many words that takes
-/

namespace Verse.Number

/-- A term whose value goes no further than the greatest word. -/
def Term.capped (term : Term) : Term :=
  { term with value := min term.value (UInt64.size - 1) }

variable {a : Arithmetic} {term next first number : Term} {rest terms others : List Term}

/-! ## The bounds of a product -/

/-- A product is below ten thousand with fifteen zeros, and has a bound for each of its words as
    well. -/
theorem Term.IsProduct.bounds (h : term.IsProduct) :
    term.magnitude ≤ 17 ∧ term.value ≤ 9999 * 10 ^ 15 ∧
      term.value ≤ 9810 * 10 ^ 15 + 30 * 10 ^ 15 * term.words ∧
      (term.magnitude < 17 → term.value ≤ 30 * 10 ^ 15 * term.words) := by
  have hpos := words_pos term
  obtain ⟨magnitude, words, value, scale, hfactor, hscale, hmagnitude, hwords, hvalue⟩ := h
  simp only [scales, List.mem_cons, List.not_mem_nil, or_false] at hscale
  -- The factor and the power of a thousand each have bounds, which are multiplied.
  unfold IsFactor AreDigits at hfactor
  -- The bound for the words is met by ninety and by nine thousand nine hundred and ninety.
  obtain rfl | rfl | rfl | rfl | rfl | rfl | rfl := hscale <;>
    simp only at hmagnitude hwords hvalue <;> omega

/-- What comes to the fourth pass goes no further than a billion. -/
theorem Term.IsPart.value_le (h : term.IsPart 2 AreDigits) : term.value ≤ 10 ^ 9 := by
  obtain ⟨hwords, hsmall⟩ | ⟨-, hdigits⟩ | ⟨-, hpower, hvalue⟩ := h
  · omega
  · unfold AreDigits at hdigits
    omega
  · rw [hvalue]
    refine Nat.pow_le_pow_right (by decide) ?_
    simp only [List.mem_cons, List.not_mem_nil, or_false] at hpower
    omega

/-! ## The first four passes -/

/-- Adding is exact where the sum fits a word. -/
theorem Arithmetic.add_saturating {x y : Nat} (h : x + y < UInt64.size) :
    Arithmetic.saturating.add x y = Arithmetic.exact.add x y :=
  Arithmetic.saturating_exactBelow.add h

/-- Multiplying is exact where the product fits a word. -/
theorem Arithmetic.mul_saturating {x y : Nat} (h : x * y < UInt64.size) :
    Arithmetic.saturating.mul x y = Arithmetic.exact.mul x y :=
  Arithmetic.saturating_exactBelow.mul h

/-- The fourth pass never reaches the greatest word. -/
theorem multiples_saturating (hterm : term.IsProduct) (hnext : next.IsPart 2 AreDigits)
    (hleads : Leads term next) : multiples .saturating term next = multiples .exact term next := by
  by_cases hlt : term.magnitude < next.magnitude
  -- What is multiplied is a product again, and products are small enough.
  · have hscale : next.IsScale := hnext.isScale (by unfold Leads at hleads; omega)
    obtain ⟨-, hvalue, -⟩ := (hterm.join hscale hlt).bounds
    have hfits : term.value * next.value < UInt64.size := hvalue.trans_lt (by decide)
    rw [multiples_join hlt, multiples_join hlt, Arithmetic.mul_saturating hfits]
  · -- Nothing is multiplied.
    obtain heq | hgt := Nat.eq_or_lt_of_not_lt hlt
    · rw [multiples, multiples, heq, Nat.compare_eq_eq.mpr rfl]
    · rw [multiples_apart hgt, multiples_apart hgt]

/-- Two parts together stay far below the greatest word. -/
theorem Term.IsPart.fits (hterm : term.IsPart 2 AreDigits) (hnext : next.IsPart 2 AreDigits) :
    term.value + next.value < UInt64.size ∧ term.value * next.value < UInt64.size := by
  have hsize : UInt64.size = 2 ^ 64 := rfl
  have hle := hterm.value_le
  have hle' := hnext.value_le
  have hmul := Nat.mul_le_mul hle hle'
  omega

/-- One hundred is within the bounds of digits. -/
theorem IsHundred.areDigits {words value : Nat} (h : IsHundred words value) :
    AreDigits words value := by
  simp only [IsHundred, AreDigits] at h ⊢
  omega

/-- So are hundreds. -/
theorem AreHundreds.areDigits {words value : Nat} (h : AreHundreds words value) :
    AreDigits words value := by
  simp only [AreHundreds, AreDigits] at h ⊢
  omega

/-- Any terms lead to each other in no particular way. -/
theorem isChain_true (terms : List Term) : terms.IsChain fun _ _ => True :=
  (List.pairwise_of_forall fun _ _ => trivial).isChain

/-- The first pass never reaches the greatest word. -/
theorem coincide_units (h : ∀ term ∈ terms, term.IsPart 1 IsHundred) :
    Coincide (fun left => ∀ term ∈ left, term.IsPart 2 IsHundred)
      (passAll (units .saturating) false terms) (passAll (units .exact) false terms) := by
  refine stage_units.coincide_passAll (fun term next hterm hnext _ => ?_) h (isChain_true terms)
  -- Both terms have bounds that are more than narrow enough.
  have hfits := (hterm.mono (by decide) fun _ _ => IsHundred.areDigits).fits
    (hnext.mono (by decide) fun _ _ => IsHundred.areDigits)
  simp only [units, Arithmetic.add_saturating hfits.1]

/-- The second pass never reaches the greatest word, and leaves nothing small before anything
    small. -/
theorem coincide_hundreds (h : ∀ term ∈ terms, term.IsPart 2 IsHundred) :
    Coincide (fun left => (∀ term ∈ left, term.IsPart 2 AreHundreds) ∧ left.IsChain Leads)
      (passAll (hundreds .saturating) false terms) (passAll (hundreds .exact) false terms) := by
  have hmeets : ∀ term next, term.IsPart 2 IsHundred → next.IsPart 2 IsHundred → True →
      hundreds .saturating term next = hundreds .exact term next := by
    intro term next hterm hnext _
    have hfits := (hterm.mono le_rfl fun _ _ => IsHundred.areDigits).fits
      (hnext.mono le_rfl fun _ _ => IsHundred.areDigits)
    simp only [hundreds, Arithmetic.mul_saturating hfits.2]
  obtain ⟨heq, hparts⟩ := stage_hundreds.coincide_passAll hmeets h (isChain_true terms)
  -- The chain is told by the exact pass alone.
  refine ⟨heq, fun left hleft => ⟨hparts left hleft, ?_⟩⟩
  refine isChain_of_passAll (fun _ _ _ h => of_hundreds_apart h) (fun _ _ _ _ h => ?_)
    (isChain_true terms) hleft
  obtain ⟨hlt, -, -, hmagnitude⟩ := of_hundreds_join h
  exact ⟨by omega, hmagnitude⟩

/-- The third pass never reaches the greatest word, and keeps the chain. -/
theorem coincide_remainders (h : (∀ term ∈ terms, term.IsPart 2 AreHundreds) ∧ terms.IsChain Leads) :
    Coincide (fun left => (∀ term ∈ left, term.IsPart 2 AreDigits) ∧ left.IsChain Leads)
      (passAll (remainders .saturating) false terms) (passAll (remainders .exact) false terms) := by
  have hmeets : ∀ term next, term.IsPart 2 AreHundreds → next.IsPart 2 AreHundreds →
      Leads term next → remainders .saturating term next = remainders .exact term next := by
    intro term next hterm hnext _
    have hfits := (hterm.mono le_rfl fun _ _ => AreHundreds.areDigits).fits
      (hnext.mono le_rfl fun _ _ => AreHundreds.areDigits)
    simp only [remainders, Arithmetic.add_saturating hfits.1]
  obtain ⟨heq, hparts⟩ := stage_remainders.coincide_passAll hmeets h.1 h.2
  refine ⟨heq, fun left hleft => ⟨hparts left hleft, ?_⟩⟩
  refine isChain_of_passAll (fun _ _ h _ => h) (fun _ _ _ _ h => ?_) h.2 hleft
  obtain ⟨hterm, -, -, hmagnitude⟩ := of_remainders_join h
  exact ⟨by omega, hmagnitude⟩

/-- The first four passes never reach the greatest word, and what they leave are products. -/
theorem coincide_addends (hwords : ∀ term ∈ terms, term.IsWord) :
    Coincide (fun left => ∀ term ∈ left, term.IsProduct) (addends .saturating terms)
      (addends .exact terms) := by
  -- Pass by pass, what is left is such as the next pass takes.
  apply (coincide_units fun term h => (hwords term h).isPart).bind
  intro tens htens
  apply (coincide_hundreds htens).bind
  intro hundredfold hhundredfold
  apply (coincide_remainders hhundredfold).bind
  intro paired hpaired
  exact stage_multiples.coincide_passAll
    (fun term next hterm hnext hleads => multiples_saturating hterm hnext hleads) hpaired.1 hpaired.2

/-! ## The last pass -/

/-- A sum that goes no further than the greatest word is the sum, capped. -/
theorem plus_capped (hnext : next.value < UInt64.size) :
    term.capped.plus .saturating next = (term.plus .exact next).capped := by
  have hvalue : min (min term.value (UInt64.size - 1) + next.value) (UInt64.size - 1) =
      min (term.value + next.value) (UInt64.size - 1) := by omega
  simp only [Term.plus, Term.join, Term.capped, Arithmetic.saturating, Arithmetic.exact, hvalue]

/-- A value that fits a word stays as it is. -/
theorem capped_of_lt (h : term.value < UInt64.size) : term.capped = term := by
  rw [Term.capped, Nat.min_eq_left (by omega)]

/-- Where one arithmetic is capped, the last pass makes of each term what the other makes of it,
    capped. -/
theorem pass_sums_saturating (hrest : ∀ next ∈ rest, next.value < UInt64.size) :
    pass (sums .saturating) true term.capped rest =
      (pass (sums .exact) true term rest).map (List.map Term.capped) := by
  induction rest generalizing term with
  | nil => rfl
  | cons next rest ih =>
    rw [List.forall_mem_cons] at hrest
    -- A term of the group is capped already, and so it can be written as one that is.
    have hnext := capped_of_lt hrest.1
    -- Whether terms clash or stay apart is told by their magnitudes, which are not capped.
    obtain hlt | heq | hgt := Nat.lt_trichotomy next.magnitude term.magnitude
    · have hcapped : sums .saturating term.capped next = .join
          (Arithmetic.saturating.add term.capped.value next.value) term.magnitude := sums_join hlt
      rw [pass_join_again (sums_join hlt), pass_join_again hcapped]
      change pass (sums .saturating) true (term.capped.plus .saturating next) rest = _
      rw [plus_capped hrest.1]
      exact ih hrest.2
    · have hcapped : sums .saturating term.capped next = .clash := sums_clash heq
      rw [pass, pass, sums_clash heq, hcapped]
      rfl
    · have hcapped : sums .saturating term.capped next = .apart := sums_apart hgt
      rw [pass_apart (sums_apart hgt), pass_apart hcapped, ← hnext, ih hrest.2, hnext]
      cases pass (sums .exact) true next rest <;> rfl

/-- What comes to the last pass says what the group has said. -/
theorem keeps_of_addends (h : addends a terms = .ok others) : Keeps terms others := by
  simp only [addends, bind_eq_ok_iff] at h
  obtain ⟨tens, htens, hundredfold, hhundredfold, paired, hpaired, hmultiplied⟩ := h
  exact (keeps_of_passAll htens).trans ((keeps_of_passAll hhundredfold).trans
    ((keeps_of_passAll hpaired).trans (keeps_of_passAll hmultiplied)))

/-- All five passes together make the exact terms, capped. -/
theorem reduce_saturating (hwords : ∀ term ∈ terms, term.IsWord) :
    reduce .saturating terms = (reduce .exact terms).map (List.map Term.capped) := by
  obtain ⟨heq, hproducts⟩ := coincide_addends hwords
  rw [reduce_eq_bind, reduce_eq_bind, heq]
  cases hleft : addends .exact terms with
  | error fault => rfl
  | ok left =>
    cases left with
    | nil => rfl
    | cons lead others =>
      -- Products fit a word, so that they are capped already.
      have hfits : ∀ term ∈ lead :: others, term.value < UInt64.size := by
        intro term hterm
        exact (hproducts _ hleft term hterm).bounds.2.1.trans_lt (by decide)
      rw [List.forall_mem_cons] at hfits
      have hsums : pass (sums .saturating) true lead.capped others = _ :=
        pass_sums_saturating hfits.2
      rwa [capped_of_lt hfits.1] at hsums

/-- A number is the one that unbounded arithmetic gives, or the greatest word if that one is beyond
    it; and what is no number in the one arithmetic is none in the other. -/
theorem combine_saturating (hwords : ∀ term ∈ first :: rest, term.IsWord) :
    combine .saturating first rest = (combine .exact first rest).map Term.capped := by
  rw [combine, combine, reduce_saturating hwords]
  cases hreduce : reduce .exact (first :: rest) with
  | error fault => rfl
  | ok left =>
    cases left with
    | nil => exact absurd ((keeps_of_reduce hreduce).nil_iff.mp rfl) (List.cons_ne_nil _ _)
    | cons left others => cases others <;> rfl

/-! ## How many words it takes -/

/-- Without a bound, a total is the sum of all values. -/
theorem value_total (lead : Term) (others : List Term) :
    (total .exact lead others).value = lead.value + (others.map Term.value).sum := by
  induction others generalizing lead with
  | nil => rfl
  | cons next others ih =>
    rw [total, List.foldl_cons, List.map_cons, List.sum_cons, ← Nat.add_assoc]
    exact ih _

/-- A term behind the first has thirty thousand billions for each of its words at most. -/
theorem sum_value_le (h : ∀ term ∈ others, term.IsProduct ∧ term.magnitude < 17) :
    (others.map Term.value).sum ≤ 30 * 10 ^ 15 * (others.map Term.words).sum := by
  induction others with
  | nil => simp
  | cons next others ih =>
    rw [List.forall_mem_cons] at h
    have hnext := h.1.1.bounds.2.2.2 h.1.2
    have hothers := ih h.2
    simp only [List.map_cons, List.sum_cons]
    omega

/-- Words are as many as there are terms. -/
theorem sum_words_of_forall (h : ∀ term ∈ terms, term.IsWord) :
    (terms.map Term.words).sum = terms.length := by
  have hone : ∀ words ∈ terms.map Term.words, words = 1 := by
    intro words hmem
    obtain ⟨term, hterm, rfl⟩ := List.mem_map.mp hmem
    exact (h term hterm).words_eq
  rw [List.sum_eq_card_nsmul _ 1 hone, List.length_map, smul_eq_mul, Nat.mul_one]

/-- A group of no more than 287 words is a number that fits a word. -/
theorem value_lt_of_length_le (hwords : ∀ term ∈ first :: rest, term.IsWord)
    (hlength : (first :: rest).length ≤ 287) (h : combine .exact first rest = .ok number) :
    number.value < UInt64.size := by
  obtain ⟨lead, others, haddends, houtweighs, rfl⟩ := combine_eq_ok_iff.mp h
  -- The first term has the greatest magnitude, so that the others are below it and have their
  -- bounds.
  have hproducts : ∀ term ∈ lead :: others, term.IsProduct := (coincide_addends hwords).2 _ haddends
  rw [List.forall_mem_cons] at hproducts
  obtain ⟨hmagnitude, -, hlead, -⟩ := hproducts.1.bounds
  have hothers := sum_value_le fun term hterm =>
    ⟨hproducts.2 term hterm, (houtweighs term hterm).trans_le hmagnitude⟩
  -- The addends have as many words as the group had terms.
  have hkeeps := sum_words_of_keeps (keeps_of_addends haddends)
  rw [sum_words_of_forall hwords, List.map_cons, List.sum_cons] at hkeeps
  rw [value_total]
  -- Ninety-eight hundred and ten, and thirty for every word, are below the greatest word in these
  -- units.
  have hsize : UInt64.size = 2 ^ 64 := rfl
  omega

/-- A group is a number in the arithmetic that stops at the greatest word just when it is one in the
    arithmetic that does not, and the faults are the same.  The first four passes never reach the
    greatest word.  The last one may, and then its number is the greatest word, so that the two
    arithmetics read a group as the same number just when that number fits a word.  It does if the
    group has no more than 287 words. -/
theorem only_long_groups_saturate (first : Term) (rest : List Term)
    (hwords : ∀ term ∈ first :: rest, term.IsWord) :
    addends .saturating (first :: rest) = addends .exact (first :: rest) ∧
    combine .saturating first rest = (combine .exact first rest).map Term.capped ∧
    (∀ number, combine .exact first rest = .ok number →
      (combine .saturating first rest = .ok number ↔ number.value < UInt64.size)) ∧
    ((first :: rest).length ≤ 287 →
      combine .saturating first rest = combine .exact first rest) := by
  have hcombine := combine_saturating hwords
  refine ⟨(coincide_addends hwords).1, hcombine, fun number hnumber => ?_, fun hlength => ?_⟩
  · rw [hcombine, hnumber]
    constructor
    · intro hcapped
      have hvalue := congrArg Term.value (Except.ok.inj hcapped)
      have hsize : UInt64.size = 2 ^ 64 := rfl
      simp only [Term.capped] at hvalue
      omega
    · intro hlt
      exact congrArg Except.ok (capped_of_lt hlt)
  · rw [hcombine]
    cases hnumber : combine .exact first rest with
    | error fault => rfl
    | ok number => exact congrArg Except.ok (capped_of_lt (value_lt_of_length_le hwords hlength hnumber))

/-- Number words make terms that are words. -/
theorem isWord_ofWords {words : List String} (h : ∀ word ∈ words, isNumberWord word = true) :
    ∀ term ∈ ofWords words, term.IsWord := by
  intro term hterm
  obtain ⟨word, hword, rfl⟩ := List.mem_map.mp hterm
  obtain ⟨value, hvalue⟩ := Option.isSome_iff_exists.mp (h word hword)
  exact ⟨word, value, hvalue, by rw [hvalue]; rfl⟩

/-- The word that the groups below begin with. -/
def ninety : Term := .ofValue ⟨1, 1⟩ "ninety" 90

/-- What makes of it nine thousand nine hundred and ninety million billions, and so many times
    ninety million billions more. -/
def nineties (count : Nat) : List String :=
  ["nine", "hundred", "ninety", "million", "billion"] ++
    (List.replicate count ["ninety", "million", "billion"]).flatten

/-- So do the words of the groups below. -/
theorem isWord_nineties {count : Nat} (h : ∀ word ∈ nineties count, isNumberWord word = true) :
    ∀ term ∈ ninety :: ofWords (nineties count), term.IsWord := by
  rw [List.forall_mem_cons]
  exact ⟨⟨"ninety", 90, by decide +kernel, rfl⟩, isWord_ofWords h⟩

/-- Added once, they fit a word. -/
theorem only_long_groups_saturate_nineties :
    (∀ term ∈ ninety :: ofWords (nineties 1), term.IsWord) ∧
      combine .saturating ninety (ofWords (nineties 1)) =
        combine .exact ninety (ofWords (nineties 1)) ∧
      ∃ number, combine .exact ninety (ofWords (nineties 1)) = .ok number ∧
        number.value = 10080 * 10 ^ 15 ∧
        combine .saturating ninety (ofWords (nineties 1)) = .ok number := by
  have hwords : ∀ term ∈ ninety :: ofWords (nineties 1), term.IsWord :=
    isWord_nineties (by decide +kernel)
  obtain ⟨-, -, hfits, hshort⟩ := only_long_groups_saturate ninety (ofWords (nineties 1)) hwords
  have hexact : (combine .exact ninety (ofWords (nineties 1))).toOption.map Term.value =
      some (10080 * 10 ^ 15) := by decide +kernel
  obtain ⟨number, hnumber, hvalue⟩ := exists_of_toOption_map hexact
  refine ⟨hwords, hshort (by decide), number, hnumber, hvalue, (hfits number hnumber).mpr ?_⟩
  rw [hvalue]
  decide

/-- Added ninety-four times, with which the group has 288 words, they do not. -/
theorem many_nineties_saturate :
    (ninety :: ofWords (nineties 94)).length = 288 ∧
      (∀ term ∈ ninety :: ofWords (nineties 94), term.IsWord) ∧
      ∃ number unbounded, combine .saturating ninety (ofWords (nineties 94)) = .ok number ∧
        combine .exact ninety (ofWords (nineties 94)) = .ok unbounded ∧
        number.value = UInt64.size - 1 ∧ unbounded.value = 18450 * 10 ^ 15 := by
  have hsaturating : (combine .saturating ninety (ofWords (nineties 94))).toOption.map Term.value =
      some (UInt64.size - 1) := by decide +kernel
  have hexact : (combine .exact ninety (ofWords (nineties 94))).toOption.map Term.value =
      some (18450 * 10 ^ 15) := by decide +kernel
  obtain ⟨number, hnumber, hvalue⟩ := exists_of_toOption_map hsaturating
  obtain ⟨unbounded, hexact, hvalue'⟩ := exists_of_toOption_map hexact
  exact ⟨by decide +kernel, isWord_nineties (by decide +kernel), number, unbounded, hnumber, hexact,
    hvalue, hvalue'⟩

end Verse.Number
