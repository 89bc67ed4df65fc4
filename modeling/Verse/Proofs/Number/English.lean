import Mathlib
import Verse.Proofs.Number.Pass

/-!
# Numbers spelled in English

A number is spelled in groups of three digits: how many hundreds, and then a word or two for
what is below one hundred.  Each group is followed by the word for its thousands, and an empty
group has no word at all.  Reading the words of a number gives the number back.

* `english`                      the words of a number, each as the number that it spells
* `exists_pairs_belowThousand`   three digits are joined to one term
* `exists_multiples_inGroups`    one term for each group is left to the last pass
* `exists_combine_english`       the words of a number are read as the number
-/

namespace Verse.Number

/-! ## The words of a number -/

/-- A number below one hundred: a word of its own, or the tens and then the units. -/
def belowHundred (n : Nat) : List Nat :=
  if n = 0 then [] else if n < 20 ∨ n % 10 = 0 then [n] else [n / 10 * 10, n % 10]

/-- A number below one thousand: the hundreds and then the rest. -/
def belowThousand (n : Nat) : List Nat :=
  (if n / 100 = 0 then [] else [n / 100, 100]) ++ belowHundred (n % 100)

/-- A number of at most `k + 1` groups of three digits. -/
def inGroups : Nat → Nat → List Nat
  | 0, n => belowThousand n
  | k + 1, n =>
    let high := n / 1000 ^ (k + 1)
    (if high = 0 then [] else belowThousand high ++ [1000 ^ (k + 1)]) ++
      inGroups k (n % 1000 ^ (k + 1))

/-- The words of a number below `10 ^ 12`, each as the number that it spells: billions,
    millions, thousands and the rest. -/
def english (n : Nat) : List Nat :=
  inGroups 3 n

example : english 120015000342 = [1, 100, 20, 1000000000, 15, 1000000, 3, 100, 40, 2] := by decide

/-! ## How terms meet -/

section

variable {a : Arithmetic} {term next : Term}

/-- A hundred or more on either side is not joined with units. -/
theorem units_apart (h : 2 ≤ term.magnitude ∨ 2 ≤ next.magnitude) :
    units a term next = .apart := by
  by_cases hterm : 2 ≤ term.magnitude
  · rw [units, if_pos hterm]
  · rw [units, if_neg hterm, Nat.compare_eq_lt.mpr (by omega)]

/-- Tens take the units behind them. -/
theorem units_join (hlt : next.magnitude < term.magnitude) (hterm : term.magnitude < 2)
    (hten : term.value % 10 = 0) :
    units a term next = .join (a.add term.value next.value) term.magnitude := by
  rw [units, if_neg (by omega), Nat.compare_eq_gt.mpr hlt]
  exact if_pos hten

/-- No hundred is multiplied by what is a hundred or more, and nothing beyond a hundred is
    multiplied yet. -/
theorem hundreds_apart (h : 2 ≤ term.magnitude ∨ 3 ≤ next.magnitude) :
    hundreds a term next = .apart := by
  by_cases hterm : 2 ≤ term.magnitude
  · rw [hundreds, if_pos hterm]
  · rw [hundreds, if_neg hterm, Nat.compare_eq_gt.mpr (by omega)]

/-- A number below one hundred multiplies the hundred behind it. -/
theorem hundreds_join (hterm : term.magnitude < 2) (hnext : next.magnitude = 2) :
    hundreds a term next = .join (a.mul term.value next.value) 2 := by
  rw [hundreds, if_neg (by omega), Nat.compare_eq_eq.mpr hnext]

/-- Only hundreds take anything, and nothing that is in the thousands. -/
theorem remainders_apart (h : term.magnitude ≠ 2 ∨ 3 ≤ next.magnitude) :
    remainders a term next = .apart := by
  by_cases hterm : term.magnitude ≠ 2
  · rw [remainders, if_pos hterm]
  · rw [remainders, if_neg hterm, Nat.compare_eq_lt.mpr (by omega)]

/-- Hundreds take what is below one hundred. -/
theorem remainders_join (hterm : term.magnitude = 2) (hnext : next.magnitude < 2) :
    remainders a term next = .join (a.add term.value next.value) 2 := by
  rw [remainders, if_neg (by omega), Nat.compare_eq_gt.mpr (by omega)]

/-- A term multiplies what is greater. -/
theorem multiples_join (h : term.magnitude < next.magnitude) :
    multiples a term next =
      .join (a.mul term.value next.value) (term.magnitude + next.magnitude) := by
  rw [multiples, Nat.compare_eq_lt.mpr h]

/-- What is smaller than a term is left apart from it. -/
theorem multiples_apart (h : next.magnitude < term.magnitude) :
    multiples a term next = .apart := by
  rw [multiples, Nat.compare_eq_gt.mpr h]

/-- A sum takes what is smaller. -/
theorem sums_join (h : next.magnitude < term.magnitude) :
    sums a term next = .join (a.add term.value next.value) term.magnitude := by
  rw [sums, Nat.compare_eq_gt.mpr h]

end

/-! ## Magnitudes -/

/-- A digit has no magnitude. -/
theorem magnitude_of_lt_ten {n : Nat} (h : n < 10) : Numeric.magnitude n = 0 := by
  rw [Numeric.magnitude, if_pos h]

/-- One zero more adds one to the magnitude. -/
theorem magnitude_ten_mul {n : Nat} (h : 0 < n) :
    Numeric.magnitude (10 * n) = Numeric.magnitude n + 1 := by
  rw [Numeric.magnitude, if_neg (by omega), Nat.mul_div_cancel_left n (by decide)]

/-- Below one hundred there are at most two digits. -/
theorem magnitude_lt_two {n : Nat} (h : n < 100) : Numeric.magnitude n < 2 := by
  rw [Numeric.magnitude]
  split
  · decide
  · rw [magnitude_of_lt_ten (by omega)]
    decide

/-- A hundred has two zeros. -/
theorem magnitude_hundred : Numeric.magnitude 100 = 2 := by
  rw [show 100 = 10 * (10 * 1) by rfl, magnitude_ten_mul (by decide), magnitude_ten_mul (by decide),
    magnitude_of_lt_ten (by decide)]

/-- Each three zeros add three to the magnitude. -/
theorem magnitude_scale (k : Nat) : Numeric.magnitude (1000 ^ k) = 3 * k := by
  induction k with
  | zero => exact magnitude_of_lt_ten (by decide)
  | succ k ih =>
    have hpos : 0 < 1000 ^ k := Nat.pow_pos (by decide)
    rw [show 1000 ^ (k + 1) = 10 * (10 * (10 * 1000 ^ k)) by rw [Nat.pow_succ]; omega,
      magnitude_ten_mul (by omega), magnitude_ten_mul (by omega), magnitude_ten_mul hpos, ih]
    omega

/-! ## Three digits -/

/-- A term that is a single word for a number. -/
def Term.Reads (term : Term) (value : Nat) : Prop :=
  term.value = value ∧ term.magnitude = Numeric.magnitude value

/-- An arithmetic that loses nothing below a bound. -/
structure Arithmetic.ExactBelow (arithmetic : Arithmetic) (bound : Nat) : Prop where
  add : ∀ {x y : Nat}, x + y < bound → arithmetic.add x y = x + y
  mul : ∀ {x y : Nat}, x * y < bound → arithmetic.mul x y = x * y

/-- Arithmetic that stops at the greatest word is exact up to there. -/
theorem Arithmetic.saturating_exactBelow : Arithmetic.saturating.ExactBelow UInt64.size where
  add h := Nat.min_eq_left (by omega)
  mul h := Nat.min_eq_left (by omega)

/-- No term, for nothing, or one below a magnitude. -/
inductive AtMostOne (limit : Nat) : Nat → List Term → Prop where
  | none : AtMostOne limit 0 []
  | one {n : Nat} {term : Term} (hvalue : term.value = n) (h : term.magnitude < limit) :
      AtMostOne limit n [term]

/-- A greater limit holds as well. -/
theorem AtMostOne.mono {limit limit' n : Nat} {terms : List Term} (h : AtMostOne limit n terms)
    (hle : limit ≤ limit') : AtMostOne limit' n terms := by
  cases h with
  | none => exact .none
  | one hvalue h => exact .one hvalue (h.trans_le hle)

section

variable {a : Arithmetic} {bound : Nat}

/-- What is below one hundred is joined in the first pass. -/
theorem exists_units_belowHundred (ha : a.ExactBelow bound) {n : Nat}
    (hn : n < 100) (hbound : n < bound) {terms : List Term}
    (hterms : List.Forall₂ Term.Reads terms (belowHundred n)) :
    ∃ tens, passAll (units a) false terms = .ok tens ∧ AtMostOne 2 n tens := by
  rw [belowHundred] at hterms
  split at hterms
  case isTrue hzero =>
    cases hterms
    exact ⟨[], rfl, hzero ▸ .none⟩
  case isFalse hzero =>
    split at hterms
    case isTrue hword =>
      -- A single word is left as it is.
      obtain ⟨term, rest, ⟨hvalue, hmagnitude⟩, hrest, rfl⟩ := List.forall₂_cons_right_iff.mp hterms
      cases hrest
      exact ⟨[term], rfl, .one hvalue (hmagnitude ▸ magnitude_lt_two hn)⟩
    case isFalse hword =>
      obtain ⟨ten, rest, ⟨hten, htenth⟩, hrest, rfl⟩ := List.forall₂_cons_right_iff.mp hterms
      obtain ⟨unit, last, ⟨hunit, hunitary⟩, hlast, rfl⟩ := List.forall₂_cons_right_iff.mp hrest
      cases hlast
      -- The units are of a smaller magnitude than the tens, which end in a zero.
      have hzero : unit.magnitude = 0 := by
        rw [hunitary]
        -- The tens are a multiple of ten whose quotient is a digit.
        exact magnitude_of_lt_ten (by omega)
      have hone : ten.magnitude = 1 := by
        rw [htenth, Nat.mul_comm, magnitude_ten_mul (by omega), magnitude_of_lt_ten (by omega)]
      have hmeet : units a ten unit = .join (a.add ten.value unit.value) 1 := by
        rw [units_join (by omega) (by omega) (by omega), hone]
      -- The sum is below the bound, as it is the number itself.
      have hsum : a.add ten.value unit.value = n := by
        rw [ha.add (by omega)]
        omega
      exact ⟨_, pass_join_last hmeet, .one hsum Nat.one_lt_two⟩

/-- A single term goes through a pass as it is. -/
theorem passAll_atMostOne {limit n : Nat} {terms : List Term} (h : AtMostOne limit n terms)
    (meet : Term → Term → Meeting) (again : Bool) : passAll meet again terms = .ok terms := by
  -- A pass over nothing and one over a single term both do nothing.
  cases h <;> rfl

/-- A digit multiplies the hundred after it, which then takes what is below. -/
theorem exists_pairs_hundred (ha : a.ExactBelow bound) {digit hundred : Term}
    (hdigit : digit.magnitude < 2) (hmagnitude : hundred.magnitude = 2) {n : Nat}
    (hbound : digit.value * hundred.value + n < bound) {below tens : List Term}
    (htens : passAll (units a) false below = .ok tens) (hone : AtMostOne 2 n tens) :
    ∃ paired, Pairs a (digit :: hundred :: below) paired ∧
      AtMostOne 3 (digit.value * hundred.value + n) paired := by
  -- The word for the hundreds stays apart in the first pass, and is joined in the second.
  have hfirst : passAll (units a) false ([digit] ++ hundred :: below) =
      .ok ([digit] ++ hundred :: tens) := by
    refine passAll_append ?_ ?_ rfl htens
    · exact fun _ => units_apart (.inr hmagnitude.ge)
    · exact fun _ => units_apart (.inl hmagnitude.ge)
  have hsecond := hundreds_join (a := a) hdigit hmagnitude
  rw [ha.mul (by omega)] at hsecond
  -- What is below the hundreds is nothing, or one term that is added in the third pass.
  cases hone with
  | none => exact ⟨_, ⟨_, _, hfirst, pass_join_last hsecond, rfl⟩, .one rfl (Nat.lt_succ_self 2)⟩
  | @one n low hvalue hlow =>
    have hthird : remainders a (digit.join hundred (digit.value * hundred.value) 2) low =
        .join (digit.value * hundred.value + n) 2 := by
      rw [← ha.add hbound, ← hvalue]
      exact remainders_join rfl hlow
    exact ⟨_, ⟨_, _, hfirst, pass_join hsecond, pass_join_last hthird⟩,
      .one rfl (Nat.lt_succ_self 2)⟩

/-- Three digits are joined to one term. -/
theorem exists_pairs_belowThousand (ha : a.ExactBelow bound) {n : Nat}
    (hn : n < 1000) (hbound : n < bound) {terms : List Term}
    (hterms : List.Forall₂ Term.Reads terms (belowThousand n)) :
    ∃ paired, Pairs a terms paired ∧ AtMostOne 3 n paired := by
  rw [belowThousand] at hterms
  split at hterms
  case isTrue hzero =>
    -- Without hundreds the first pass has done it all.
    obtain ⟨tens, htens, hone⟩ := exists_units_belowHundred ha (by omega) (by omega) hterms
    refine ⟨tens, ⟨tens, tens, htens, passAll_atMostOne hone _ _, passAll_atMostOne hone _ _⟩, ?_⟩
    rw [show n % 100 = n by omega] at hone
    exact hone.mono (by decide)
  case isFalse hzero =>
    -- The words are the digit, the word for a hundred, and what is below.
    obtain ⟨digit, rest, ⟨hdigit, hdigital⟩, hrest, rfl⟩ := List.forall₂_cons_right_iff.mp hterms
    obtain ⟨hundred, below, ⟨hhundred, hmagnitude⟩, hbelow, rfl⟩ :=
      List.forall₂_cons_right_iff.mp hrest
    obtain ⟨tens, htens, hone⟩ := exists_units_belowHundred ha (by omega) (by omega) hbelow
    have hsmall : digit.magnitude < 2 := by
      rw [hdigital]
      exact magnitude_lt_two (by omega)
    -- The two parts make up the number again.
    have hsum : digit.value * hundred.value + n % 100 = n := by
      rw [hdigit, hhundred]
      omega
    have hpairs := exists_pairs_hundred ha hsmall (hmagnitude.trans magnitude_hundred)
      (by omega) htens hone
    rwa [hsum] at hpairs

end

/-! ## All groups -/

/-- The words for a thousand and its powers stay apart in the passes that join pairs. -/
theorem Pairs.append {a : Arithmetic} {scale : Term} (hscale : 3 ≤ scale.magnitude)
    {body body' rest rest' : List Term} (hbody : Pairs a body body') (hrest : Pairs a rest rest') :
    Pairs a (body ++ scale :: rest) (body' ++ scale :: rest') := by
  obtain ⟨tens, hundredfold, htens, hhundredfold, hpaired⟩ := hbody
  obtain ⟨tens', hundredfold', htens', hhundredfold', hpaired'⟩ := hrest
  -- The word for the thousands is too great for each of the three passes, on either side.
  refine ⟨tens ++ scale :: tens', hundredfold ++ scale :: hundredfold', ?_, ?_, ?_⟩
  · exact passAll_append (fun _ => units_apart (.inr (by omega)))
      (fun _ => units_apart (.inl (by omega))) htens htens'
  · exact passAll_append (fun _ => hundreds_apart (.inr hscale))
      (fun _ => hundreds_apart (.inl (by omega))) hhundredfold hhundredfold'
  · exact passAll_append (fun _ => remainders_apart (.inr hscale))
      (fun _ => remainders_apart (.inl (by omega))) hpaired hpaired'

/-- Words that belong to two lists of numbers, divided between them. -/
theorem exists_append_of_reads {terms : List Term} {values values' : List Nat}
    (h : List.Forall₂ Term.Reads terms (values ++ values')) :
    ∃ body rest, terms = body ++ rest ∧ List.Forall₂ Term.Reads body values ∧
      List.Forall₂ Term.Reads rest values' :=
  ⟨_, _, (List.take_append_drop values.length terms).symm, List.forall₂_take_append _ _ _ h,
    List.forall₂_drop_append _ _ _ h⟩

/-- Terms of falling magnitudes, all of them below a limit, with their sum. -/
inductive Descending : Nat → Nat → List Term → Prop where
  | nil {limit : Nat} : Descending limit 0 []
  | cons {limit sum : Nat} {term : Term} {rest : List Term} (h : term.magnitude < limit)
      (hrest : Descending term.magnitude sum rest) :
      Descending limit (term.value + sum) (term :: rest)

/-- A greater limit holds as well. -/
theorem Descending.mono {limit limit' sum : Nat} {terms : List Term}
    (h : Descending limit sum terms) (hle : limit ≤ limit') : Descending limit' sum terms := by
  cases h with
  | nil => exact .nil
  | cons hterm hrest => exact .cons (by omega) hrest

/-- A single term falls on its own. -/
theorem AtMostOne.descending {limit n : Nat} {terms : List Term} (h : AtMostOne limit n terms) :
    Descending limit n terms := by
  cases h with
  | none => exact .nil
  | one hvalue h => exact hvalue ▸ .cons h .nil

section

variable {a : Arithmetic} {bound : Nat}

/-- The last pass adds up terms of falling magnitudes. -/
theorem exists_pass_sums (ha : a.ExactBelow bound) {limit sum : Nat} {term : Term}
    {rest : List Term} (h : Descending limit sum rest) (hlimit : limit ≤ term.magnitude)
    (hbound : term.value + sum < bound) :
    ∃ number, pass (sums a) true term rest = .ok [number] ∧ number.value = term.value + sum := by
  -- A sum keeps the magnitude of its first term, so that it goes on to take what follows.
  induction h generalizing term with
  | nil => exact ⟨term, rfl, rfl⟩
  | @cons limit sum next rest hnext _ ih =>
    -- The sum is below the bound, so that it is exact.
    have hadd : a.add term.value next.value = term.value + next.value := ha.add (by omega)
    have hmeet := sums_join (a := a) (hnext.trans_le hlimit)
    rw [hadd] at hmeet
    obtain ⟨number, hpass, hvalue⟩ :=
      @ih (term.join next (term.value + next.value) term.magnitude) (hnext.le.trans hlimit)
        (by show term.value + next.value + sum < bound; omega)
    refine ⟨number, (pass_join_again hmeet).trans hpass, hvalue.trans ?_⟩
    exact Nat.add_assoc _ _ _

/-- Three digits multiply the word after them, and the group after it stays apart. -/
theorem exists_multiples_cons (ha : a.ExactBelow bound) {digits scale : Term}
    {paired multiplied : List Term} (hdigits : digits.magnitude < 3) (hscale : 3 ≤ scale.magnitude)
    (hbound : digits.value * scale.value < bound)
    (hhead : ∀ term ∈ paired.head?, term.magnitude < 3)
    (hmultiplied : passAll (multiples a) true paired = .ok multiplied) :
    ∃ joined, passAll (multiples a) true (digits :: scale :: paired) = .ok (joined :: multiplied) ∧
      joined.value = digits.value * scale.value ∧
      joined.magnitude = digits.magnitude + scale.magnitude := by
  have hmeet := multiples_join (a := a) (hdigits.trans_le hscale)
  rw [ha.mul hbound] at hmeet
  refine ⟨_, (pass_join_again hmeet).trans (pass_of_apart ?_ hmultiplied), rfl, rfl⟩
  intro next hnext
  -- What stays apart is a term of a group of its own, and smaller than what the thousands have
  -- made.
  apply multiples_apart
  have hsmall := hhead next hnext
  show next.magnitude < digits.magnitude + scale.magnitude
  omega

/-- Group by group, the first four passes leave one term for each group that is not empty. -/
theorem exists_multiples_inGroups (ha : a.ExactBelow bound) {k n : Nat} {terms : List Term}
    (hn : n < 1000 ^ (k + 1)) (hbound : n < bound)
    (hterms : List.Forall₂ Term.Reads terms (inGroups k n)) :
    ∃ paired multiplied, Pairs a terms paired ∧ (∀ term ∈ paired.head?, term.magnitude < 3) ∧
      passAll (multiples a) true paired = .ok multiplied ∧
      Descending (3 * (k + 1)) n multiplied := by
  -- The induction is on the number of groups: the highest one is put in front of the others.
  induction k generalizing n terms with
  | zero =>
    obtain ⟨paired, hpaired, hone⟩ := exists_pairs_belowThousand ha (by omega) hbound hterms
    refine ⟨paired, paired, hpaired, ?_, passAll_atMostOne hone _ _, hone.descending⟩
    cases hone with
    | none => simp
    | one _ h => simpa using h
  | succ k ih =>
    rw [inGroups] at hterms
    have hpos : 0 < 1000 ^ (k + 1) := Nat.pow_pos (by decide)
    have hhigh : n / 1000 ^ (k + 1) < 1000 := by
      rw [Nat.div_lt_iff_lt_mul hpos, ← Nat.pow_succ']
      exact hn
    have hlow : n % 1000 ^ (k + 1) < 1000 ^ (k + 1) := Nat.mod_lt n hpos
    have hsum : n / 1000 ^ (k + 1) * 1000 ^ (k + 1) + n % 1000 ^ (k + 1) = n :=
      Nat.div_add_mod' n _
    -- From here on only the bounds of the two parts matter, and that they make up the number.
    generalize n / 1000 ^ (k + 1) = high at hterms hhigh hsum
    generalize n % 1000 ^ (k + 1) = low at hterms hlow hsum
    split at hterms
    case isTrue hzero =>
      -- The highest group is empty and has no words.
      obtain ⟨paired, multiplied, hpaired, hhead, hmultiplied, hdescending⟩ :=
        ih hlow (by omega) hterms
      rw [hzero, Nat.zero_mul, Nat.zero_add] at hsum
      rw [hsum] at hdescending
      exact ⟨paired, multiplied, hpaired, hhead, hmultiplied, hdescending.mono (by omega)⟩
    case isFalse hzero =>
      -- The words are those of the highest group, the word for its thousands, and the others.
      rw [List.append_assoc, List.singleton_append] at hterms
      obtain ⟨body, others, rfl, hbody, hothers⟩ := exists_append_of_reads hterms
      obtain ⟨scale, rest, ⟨hscale, hmagnitude⟩, hrest, rfl⟩ :=
        List.forall₂_cons_right_iff.mp hothers
      rw [magnitude_scale] at hmagnitude
      -- The highest group is no greater than the number, and so within the bound.
      have hle : high ≤ high * 1000 ^ (k + 1) := Nat.le_mul_of_pos_right _ hpos
      obtain ⟨group, hpairs, hone⟩ := exists_pairs_belowThousand ha hhigh (by omega) hbody
      obtain ⟨paired, multiplied, hpaired, hhead, hmultiplied, hdescending⟩ :=
        ih hlow (by omega) hrest
      -- The highest group has a number that is not zero, so that one term is left of it.
      cases hone with
      | none => exact absurd rfl hzero
      | @one _ digits hvalue hdigits =>
        obtain ⟨joined, hjoined, hproduct, hmagnitudes⟩ := exists_multiples_cons ha hdigits
          (show 3 ≤ scale.magnitude by omega) (by rw [hvalue, hscale]; omega) hhead hmultiplied
        refine ⟨digits :: scale :: paired, joined :: multiplied,
          hpairs.append (by omega) hpaired, by simpa using hdigits, hjoined, ?_⟩
        -- The sum is that of the highest group with its thousands, and of the others.
        rw [← hsum, ← hvalue, ← hscale, ← hproduct]
        exact .cons (by omega) (hdescending.mono (by omega))

/-- The words of a number are joined to one term. -/
theorem exists_reduce_inGroups (ha : a.ExactBelow bound) {k n : Nat} {terms : List Term}
    (hpos : 0 < n) (hn : n < 1000 ^ (k + 1)) (hbound : n < bound)
    (hterms : List.Forall₂ Term.Reads terms (inGroups k n)) :
    ∃ number, reduce a terms = .ok [number] ∧ number.value = n := by
  obtain ⟨paired, multiplied, hpaired, -, hmultiplied, hdescending⟩ :=
    exists_multiples_inGroups ha hn hbound hterms
  -- The sum of no terms is zero.
  cases hdescending with
  | nil => exact absurd hpos (Nat.lt_irrefl 0)
  | cons h hrest =>
    obtain ⟨number, hsums, hvalue⟩ := exists_pass_sums ha hrest le_rfl hbound
    exact ⟨number, reduce_eq_ok.mpr ⟨paired, _, hpaired, hmultiplied, hsums⟩, hvalue⟩

end

/-- Every number but zero has words. -/
theorem english_ne_nil {n : Nat} (hpos : 0 < n) (hn : n < 10 ^ 12) : english n ≠ [] := by
  intro hnil
  have hterms : List.Forall₂ Term.Reads [] (english n) := by
    rw [hnil]
    exact .nil
  -- No words at all would be read as no number.
  obtain ⟨number, hreduce, -⟩ := exists_reduce_inGroups Arithmetic.saturating_exactBelow hpos
    (k := 3) (by omega) (hn.trans (by decide)) hterms
  cases hreduce

/-- The words of a number are read as the number. -/
theorem exists_combine_english {n : Nat} {first : Term} {rest : List Term} (hpos : 0 < n)
    (hn : n < 10 ^ 12) (hterms : List.Forall₂ Term.Reads (first :: rest) (english n)) :
    ∃ number, combine .saturating first rest = .ok number ∧ number.value = n := by
  obtain ⟨number, hreduce, hvalue⟩ := exists_reduce_inGroups Arithmetic.saturating_exactBelow hpos
    (k := 3) (by omega) (hn.trans (by decide)) hterms
  exact ⟨number, by rw [combine, hreduce], hvalue⟩

end Verse.Number
