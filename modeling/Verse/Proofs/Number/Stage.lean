import Verse.Proofs.Number.Pass
import Verse.Proofs.Number.Words

/-!
# What the passes make of words

Number words are put together pass by pass, and the terms that a pass leaves are of the kind that
the next one takes: words, tens with their units, hundreds, hundreds with what is below, and their
products with powers of a thousand.  The kinds say how great a term can be for the words that it is
made of.

* `Term.words`              how many words a term is made of
* `Stage`                   what a pass keeps of the terms it meets
* `stage_units`, `stage_hundreds`, `stage_remainders`, `stage_multiples`
                            the passes before the last
-/

namespace Verse.Number

/-- A single word for a number. -/
def Term.IsWord (term : Term) : Prop :=
  ∃ word value, ofWord? word = some value ∧ term = .ofValue term.place word value

/-- How many words a term is made of: one more than it has hyphens. -/
def Term.words (term : Term) : Nat :=
  term.text.toList.count '-' + 1

variable {a : Arithmetic} {term next first number : Term} {rest terms others : List Term}

/-! ## Counting words -/

/-- Every term is made of a word at least. -/
theorem words_pos (term : Term) : 0 < term.words :=
  Nat.succ_pos _

@[simp] theorem value_join (term next : Term) (value magnitude : Nat) :
    (term.join next value magnitude).value = value := rfl

@[simp] theorem magnitude_join (term next : Term) (value magnitude : Nat) :
    (term.join next value magnitude).magnitude = magnitude := rfl

/-- A term that is joined has the words of both, as there is one more hyphen. -/
@[simp] theorem words_join (term next : Term) (value magnitude : Nat) :
    (term.join next value magnitude).words = term.words + next.words := by
  simp only [Term.words, Term.join, String.toList_append, List.count_append]
  have hhyphen : "-".toList.count '-' = 1 := by decide
  omega

/-- A hyphenated text has the words of all its terms. -/
theorem count_hyphenated (term : Term) (rest : List Term) :
    (hyphenated (term :: rest)).toList.count '-' + 1 = ((term :: rest).map Term.words).sum := by
  induction rest generalizing term with
  | nil => simp [hyphenated, Term.words]
  | cons next rest ih =>
    have hhyphen : "-".toList.count '-' = 1 := by decide
    have hnext := ih next
    simp only [hyphenated, List.map_cons, String.intercalate_cons_cons, String.toList_append,
      List.count_append, List.sum_cons] at hnext ⊢
    rw [← hnext, Term.words]
    omega

/-- Passes do not change how many words there are in all. -/
theorem sum_words_of_keeps (h : Keeps (first :: rest) (term :: terms)) :
    ((term :: terms).map Term.words).sum = ((first :: rest).map Term.words).sum := by
  rw [← count_hyphenated, ← count_hyphenated, h.text]

/-! ## What passes keep -/

/-- Two results that are the same, the terms being such as they should be if there is no fault. -/
def Coincide (Left : List Term → Prop) (result result' : Except Diagnostic (List Term)) : Prop :=
  result = result' ∧ ∀ left, result' = .ok left → Left left

/-- Where two results coincide, so do those of any two passes that coincide on what is left. -/
theorem Coincide.bind {Left Left' : List Term → Prop} {result result' : Except Diagnostic (List Term)}
    {pass pass' : List Term → Except Diagnostic (List Term)} (h : Coincide Left result result')
    (hpass : ∀ left, Left left → Coincide Left' (pass left) (pass' left)) :
    Coincide Left' (result >>= pass) (result' >>= pass') := by
  obtain ⟨rfl, hleft⟩ := h
  cases result with
  | error fault => exact ⟨rfl, fun left h => by cases h⟩
  | ok left => exact hpass left (hleft left rfl)

/-- A pass over terms of one kind, each of which leads to the next in some way.  The term that the
    pass goes on with is of a second kind, and the terms that it leaves are of a third. -/
structure Stage (meet : Term → Term → Meeting) (again : Bool) (Given Running Left : Term → Prop)
    (Leads : Term → Term → Prop) : Prop where
  start : ∀ term, Given term → Running term
  leave : ∀ term, Running term → Left term
  join : ∀ term next value magnitude, Running term → Given next → Leads term next →
    meet term next = .join value magnitude →
    Left (term.join next value magnitude) ∧ (again = true →
      Running (term.join next value magnitude) ∧
      ∀ third, Leads next third → Leads (term.join next value magnitude) third)

namespace Stage

variable {meet meet' : Term → Term → Meeting} {again : Bool} {Given Running Left : Term → Prop}
  {Leads : Term → Term → Prop}

/-- The terms that a pass leaves. -/
theorem forall_left (hstage : Stage meet again Given Running Left Leads) (hterm : Running term)
    (hrest : ∀ next ∈ rest, Given next) (hleads : (term :: rest).IsChain Leads)
    (h : pass meet again term rest = .ok terms) : ∀ term ∈ terms, Left term := by
  -- The cases are those of the pass: the last term, terms apart, a clash, and three ways to join.
  fun_induction pass meet again term rest generalizing terms with
  | case1 term =>
    cases h
    simpa using hstage.leave term hterm
  | case2 term next rest _ ih =>
    obtain ⟨terms', hpass, rfl⟩ := map_eq_ok_iff.mp h
    rw [List.forall_mem_cons] at hrest ⊢
    exact ⟨hstage.leave term hterm,
      ih (hstage.start next hrest.1) hrest.2 hleads.tail hpass⟩
  | case3 => cases h
  -- The joined term goes on, and it leads to whatever the second one has led to.
  | case4 term next rest value magnitude hmeet _ hagain =>
    rename_i ih
    rw [List.forall_mem_cons] at hrest
    rw [List.isChain_cons_cons] at hleads
    obtain ⟨hrunning, honward⟩ :=
      (hstage.join term next value magnitude hterm hrest.1 hleads.1 hmeet).2 hagain
    exact ih hrunning hrest.2 (hleads.2.imp_head fun h => honward _ h) h
  -- Nothing is behind the joined term.
  | case5 term next value magnitude hmeet =>
    cases h
    rw [List.isChain_cons_cons] at hleads
    have hjoined := hstage.join term next value magnitude hterm (hrest next (by simp)) hleads.1 hmeet
    simpa using hjoined.1
  -- The joined term is left, and the pass starts again with the third.
  | case6 term next value magnitude hmeet _ _ third rest =>
    rename_i ih
    obtain ⟨terms', hpass, rfl⟩ := map_eq_ok_iff.mp h
    rw [List.forall_mem_cons, List.forall_mem_cons] at hrest
    rw [List.isChain_cons_cons] at hleads
    rw [List.forall_mem_cons]
    exact ⟨(hstage.join term next value magnitude hterm hrest.1 hleads.1 hmeet).1,
      ih (hstage.start third hrest.2.1) hrest.2.2 hleads.2.tail hpass⟩

/-- Two ways to meet that agree on the terms of a pass make the same of them. -/
theorem pass_congr (hstage : Stage meet again Given Running Left Leads)
    (hmeets : ∀ term next, Running term → Given next → Leads term next →
      meet' term next = meet term next) (hterm : Running term)
    (hrest : ∀ next ∈ rest, Given next) (hleads : (term :: rest).IsChain Leads) :
    pass meet' again term rest = pass meet again term rest := by
  -- Only the meetings of a running term with the next one are asked for.
  fun_induction pass meet again term rest with
  | case1 term => rfl
  | case2 term next rest hmeet ih =>
    rw [List.forall_mem_cons] at hrest
    rw [List.isChain_cons_cons] at hleads
    have hmeet' := (hmeets term next hterm hrest.1 hleads.1).trans hmeet
    rw [pass_apart hmeet', ih (hstage.start next hrest.1) hrest.2 hleads.2]
  | case3 term next rest hmeet =>
    rw [List.isChain_cons_cons] at hleads
    rw [pass, (hmeets term next hterm (hrest next (by simp)) hleads.1).trans hmeet]
  -- Both passes go on with the same joined term.
  | case4 term next rest value magnitude hmeet _ hagain ih =>
    rw [List.forall_mem_cons] at hrest
    rw [List.isChain_cons_cons] at hleads
    have hmeet' := (hmeets term next hterm hrest.1 hleads.1).trans hmeet
    obtain ⟨hrunning, honward⟩ :=
      (hstage.join term next value magnitude hterm hrest.1 hleads.1 hmeet).2 hagain
    rw [← ih hrunning hrest.2 (hleads.2.imp_head fun h => honward _ h), hagain]
    exact pass_join_again hmeet'
  | case5 term next value magnitude hmeet _ hagain =>
    rw [List.isChain_cons_cons] at hleads
    have hmeet' := (hmeets term next hterm (hrest next (by simp)) hleads.1).trans hmeet
    rw [hagain]
    exact pass_join_last hmeet'
  | case6 term next value magnitude hmeet _ hagain third rest ih =>
    rw [List.forall_mem_cons, List.forall_mem_cons] at hrest
    rw [List.isChain_cons_cons] at hleads
    have hmeet' := (hmeets term next hterm hrest.1 hleads.1).trans hmeet
    rw [← ih (hstage.start third hrest.2.1) hrest.2.2 hleads.2.tail, hagain]
    exact pass_join hmeet'

/-- A pass over a group that may be empty leaves the same terms either way, all of one kind. -/
theorem coincide_passAll (hstage : Stage meet again Given Running Left Leads)
    (hmeets : ∀ term next, Running term → Given next → Leads term next →
      meet' term next = meet term next)
    (hgiven : ∀ term ∈ terms, Given term) (hleads : terms.IsChain Leads) :
    Coincide (fun left => ∀ term ∈ left, Left term) (passAll meet' again terms)
      (passAll meet again terms) := by
  cases terms with
  | nil =>
    refine ⟨rfl, fun left h => ?_⟩
    cases h
    exact List.forall_mem_nil _
  | cons term rest =>
    rw [List.forall_mem_cons] at hgiven
    have hterm := hstage.start term hgiven.1
    exact ⟨hstage.pass_congr hmeets hterm hgiven.2 hleads,
      fun left h => hstage.forall_left hterm hgiven.2 hleads h⟩

end Stage

/-! ## The terms of each pass -/

/-- A word for a thousand or for one of its powers. -/
def Term.IsScale (term : Term) : Prop :=
  term.words = 1 ∧ term.magnitude ∈ [3, 6, 9] ∧ term.value = 10 ^ term.magnitude

/-- A term below one hundred, of at most so many words. -/
def Term.IsSmall (count : Nat) (term : Term) : Prop :=
  term.words ≤ count ∧ (term.magnitude = 0 ∧ term.value ≤ 9 ∨
    term.magnitude = 1 ∧ term.value ≤ 81 + 9 * term.words)

/-- A term below one hundred, one in the hundreds with a bound for its words and its value, or a
    word for a power of a thousand. -/
def Term.IsPart (count : Nat) (Hundred : Nat → Nat → Prop) (term : Term) : Prop :=
  term.IsSmall count ∨ (term.magnitude = 2 ∧ Hundred term.words term.value) ∨ term.IsScale

/-- The hundred before it is multiplied. -/
def IsHundred (words value : Nat) : Prop :=
  words = 1 ∧ value = 100

/-- Hundreds before they take what is below. -/
def AreHundreds (words value : Nat) : Prop :=
  words ≤ 3 ∧ value ≤ 7200 + 900 * words

/-- Hundreds with what is below. -/
def AreDigits (words value : Nat) : Prop :=
  value ≤ 9999 ∧ value ≤ 9870 + 30 * words

/-- A number below one hundred is followed by nothing but a power of a thousand. -/
def Leads (term next : Term) : Prop :=
  term.magnitude < 2 → 3 ≤ next.magnitude

/-- What the powers of a thousand behind a term do to it: by how much they raise its magnitude,
    how many words they are, and what they multiply its value by. -/
def scales : List (Nat × Nat × Nat) :=
  [(0, 0, 1), (3, 1, 10 ^ 3), (6, 1, 10 ^ 6), (9, 1, 10 ^ 9), (9, 2, 10 ^ 9), (12, 2, 10 ^ 12),
    (15, 2, 10 ^ 15)]

/-- The bounds of a term without the powers of a thousand behind it.  These can also stand for
    themselves, as if there were a one in front of them. -/
def IsFactor (magnitude words value : Nat) : Prop :=
  magnitude = 0 ∧ value ≤ 9 ∨
    magnitude = 1 ∧ 1 ≤ words ∧ words ≤ 2 ∧ value ≤ 81 + 9 * words ∨
    magnitude = 2 ∧ AreDigits words value

/-- A term with the powers of a thousand behind it. -/
def Term.IsProduct (term : Term) : Prop :=
  ∃ magnitude words value scale, IsFactor magnitude words value ∧ scale ∈ scales ∧
    term.magnitude = magnitude + scale.1 ∧ term.words = words + scale.2.1 ∧
    term.value = value * scale.2.2

instance (term : Term) : Decidable term.IsScale :=
  inferInstanceAs (Decidable (_ ∧ _ ∧ _))

instance (count : Nat) (term : Term) : Decidable (term.IsSmall count) :=
  inferInstanceAs (Decidable (_ ∧ (_ ∨ _)))

instance (words value : Nat) : Decidable (IsHundred words value) :=
  inferInstanceAs (Decidable (_ ∧ _))

instance (count : Nat) (term : Term) : Decidable (term.IsPart count IsHundred) :=
  inferInstanceAs (Decidable (_ ∨ (_ ∧ _) ∨ _))

/-- A word for a number is in the list of spellings, with its value. -/
theorem exists_spelling {word : String} {value : Nat} (h : ofWord? word = some value) :
    ∃ spelling ∈ spellings, spelling.1 = value ∧ word ∈ spelling.2 := by
  obtain ⟨spelling, hfind, rfl⟩ := Option.map_eq_some_iff.mp h
  exact ⟨spelling, List.mem_of_find?_eq_some hfind, rfl, by simpa using List.find?_some hfind⟩

/-- Every number word is small, or a hundred, or a power of a thousand. -/
theorem Term.IsWord.isPart (h : term.IsWord) : term.IsPart 1 IsHundred := by
  obtain ⟨word, value, hword, hterm⟩ := h
  -- There are few enough words to look at all of them.
  have hall : ∀ spelling ∈ spellings, ∀ word ∈ spelling.2,
      (Term.ofValue ⟨1, 1⟩ word spelling.1).IsPart 1 IsHundred := by decide +kernel
  obtain ⟨spelling, hmem, rfl, hspelled⟩ := exists_spelling hword
  rw [hterm]
  exact hall spelling hmem word hspelled

/-- It is one word, and has no hyphens. -/
theorem Term.IsWord.words_eq (h : term.IsWord) : term.words = 1 := by
  have hpos := words_pos term
  obtain ⟨hwords, -⟩ | ⟨-, hwords, -⟩ | ⟨hwords, -⟩ := h.isPart <;> omega

section

variable {value magnitude : Nat}

/-- What is joined to tens is smaller, and is added. -/
theorem of_units_join (h : units a term next = .join value magnitude) :
    term.magnitude < 2 ∧ next.magnitude < term.magnitude ∧
      value = a.add term.value next.value ∧ magnitude = term.magnitude := by
  rw [units] at h
  split at h
  · cases h
  · split at h
    case h_3 hlt =>
      split at h <;> cases h
      exact ⟨by omega, Nat.compare_eq_gt.mp hlt, rfl, rfl⟩
    all_goals cases h

/-- A hundred is joined to what is small, and multiplied by it. -/
theorem of_hundreds_join (h : hundreds a term next = .join value magnitude) :
    term.magnitude < 2 ∧ next.magnitude = 2 ∧
      value = a.mul term.value next.value ∧ magnitude = 2 := by
  rw [hundreds] at h
  split at h
  · cases h
  · split at h <;> cases h
    exact ⟨by omega, Nat.compare_eq_eq.mp ‹_›, rfl, rfl⟩

/-- What is small is left alone before a power of a thousand only. -/
theorem of_hundreds_apart (h : hundreds a term next = .apart) : Leads term next := by
  intro hterm
  rw [hundreds, if_neg (by omega)] at h
  split at h <;> cases h
  exact Nat.compare_eq_gt.mp ‹_›

/-- What is joined to hundreds is small, and is added. -/
theorem of_remainders_join (h : remainders a term next = .join value magnitude) :
    term.magnitude = 2 ∧ next.magnitude < 2 ∧
      value = a.add term.value next.value ∧ magnitude = 2 := by
  rw [remainders] at h
  split at h
  · cases h
  · split at h <;> cases h
    have hlt := Nat.compare_eq_gt.mp ‹_›
    exact ⟨by omega, by omega, rfl, rfl⟩

/-- What is joined to a term is greater, and is multiplied by it. -/
theorem of_multiples_join (h : multiples a term next = .join value magnitude) :
    term.magnitude < next.magnitude ∧
      value = a.mul term.value next.value ∧ magnitude = term.magnitude + next.magnitude := by
  rw [multiples] at h
  split at h <;> cases h
  exact ⟨Nat.compare_eq_lt.mp ‹_›, rfl, rfl⟩

end

/-- The powers of a thousand are not among the hundreds. -/
theorem Term.IsScale.three_le (h : term.IsScale) : 3 ≤ term.magnitude := by
  have hmem := h.2.1
  simp only [List.mem_cons, List.not_mem_nil, or_false] at hmem
  omega

/-- Wider bounds hold for all the more terms. -/
theorem Term.IsPart.mono {count count' : Nat} {Hundred Hundred' : Nat → Nat → Prop}
    (h : term.IsPart count Hundred) (hcount : count ≤ count')
    (hhundred : ∀ words value, Hundred words value → Hundred' words value) :
    term.IsPart count' Hundred' := by
  obtain ⟨hwords, hsmall⟩ | ⟨hmagnitude, hvalue⟩ | hscale := h
  · exact .inl ⟨hwords.trans hcount, hsmall⟩
  · exact .inr (.inl ⟨hmagnitude, hhundred _ _ hvalue⟩)
  · exact .inr (.inr hscale)

/-- What a part is can be told by its magnitude. -/
theorem Term.IsPart.isSmall {count : Nat} {Hundred : Nat → Nat → Prop}
    (h : term.IsPart count Hundred) (hlt : term.magnitude < 2) : term.IsSmall count := by
  obtain hsmall | ⟨hmagnitude, -⟩ | hscale := h
  · exact hsmall
  · omega
  · have := hscale.three_le
    omega

/-- In the hundreds, the bound of the hundreds holds. -/
theorem Term.IsPart.hundred {count : Nat} {Hundred : Nat → Nat → Prop}
    (h : term.IsPart count Hundred) (heq : term.magnitude = 2) :
    Hundred term.words term.value := by
  obtain ⟨-, hsmall⟩ | ⟨-, hhundred⟩ | hscale := h
  · omega
  · exact hhundred
  · have := hscale.three_le
    omega

/-- Beyond the hundreds there are only the powers of a thousand. -/
theorem Term.IsPart.isScale {count : Nat} {Hundred : Nat → Nat → Prop}
    (h : term.IsPart count Hundred) (hlt : 2 < term.magnitude) : term.IsScale := by
  obtain ⟨-, hsmall⟩ | ⟨hmagnitude, -⟩ | hscale := h
  · omega
  · omega
  · exact hscale

/-- The first pass makes terms of two words at most, below one hundred, out of single words. -/
theorem stage_units : Stage (units .exact) false (Term.IsPart 1 IsHundred)
    (Term.IsPart 1 IsHundred) (Term.IsPart 2 IsHundred) (fun _ _ => True) where
  start _ h := h
  leave _ h := h.mono (by decide) fun _ _ h => h
  join term next value magnitude hterm hnext _ hmeet := by
    obtain ⟨hlt, hsmaller, rfl, rfl⟩ := of_units_join hmeet
    have hterm := hterm.isSmall hlt
    have hnext := hnext.isSmall (hsmaller.trans hlt)
    -- The units are a word at least, and there is no unit greater than nine.
    have hpos := words_pos next
    refine ⟨.inl ?_, fun h => absurd h (by decide)⟩
    simp only [Term.IsSmall, words_join, value_join, magnitude_join, Arithmetic.exact] at hterm hnext ⊢
    omega

/-- The second pass makes hundreds of up to three words out of terms of two words, and a hundred.
    -/
theorem stage_hundreds : Stage (hundreds .exact) false (Term.IsPart 2 IsHundred)
    (Term.IsPart 2 IsHundred) (Term.IsPart 2 AreHundreds) (fun _ _ => True) where
  start _ h := h
  leave _ h := h.mono le_rfl fun words value h => by
    simp only [IsHundred, AreHundreds] at h ⊢
    omega
  join term next value magnitude hterm hnext _ hmeet := by
    obtain ⟨hlt, hhundred, rfl, rfl⟩ := of_hundreds_join hmeet
    have hterm := hterm.isSmall hlt
    obtain ⟨hwords, hvalue⟩ := hnext.hundred hhundred
    refine ⟨.inr (.inl ⟨rfl, ?_⟩), fun h => absurd h (by decide)⟩
    -- A hundred times eighty-one and nine for every word, with one word more for the hundred.
    simp only [Term.IsSmall, AreHundreds, words_join, value_join, Arithmetic.exact, hvalue]
      at hterm ⊢
    omega

/-- The third pass makes hundreds with what is below them. -/
theorem stage_remainders : Stage (remainders .exact) false (Term.IsPart 2 AreHundreds)
    (Term.IsPart 2 AreHundreds) (Term.IsPart 2 AreDigits) Leads where
  start _ h := h
  leave term h := by
    -- The hundreds themselves are ninety-nine at most.
    refine h.mono le_rfl fun words value h => ?_
    simp only [AreHundreds, AreDigits] at h ⊢
    omega
  join term next value magnitude hterm hnext _ hmeet := by
    obtain ⟨hhundreds, hlt, rfl, rfl⟩ := of_remainders_join hmeet
    have hterm := hterm.hundred hhundreds
    have hnext := hnext.isSmall hlt
    have hpos := words_pos next
    refine ⟨.inr (.inl ⟨rfl, ?_⟩), fun h => absurd h (by decide)⟩
    simp only [Term.IsSmall, AreHundreds, AreDigits, words_join, value_join, Arithmetic.exact]
      at hterm hnext ⊢
    omega

/-- A power of a thousand that is greater than those before it goes behind them. -/
theorem mem_scales_of_lt : ∀ scale ∈ scales, ∀ power ∈ [3, 6, 9], scale.1 < power →
    (scale.1 + power, scale.2.1 + 1, scale.2.2 * 10 ^ power) ∈ scales := by
  decide

/-- What the third pass leaves is a product, with no power of a thousand behind it as yet. -/
theorem Term.IsPart.isProduct (h : term.IsPart 2 AreDigits) : term.IsProduct := by
  have hpos := words_pos term
  obtain ⟨hwords, hsmall⟩ | ⟨hmagnitude, hdigits⟩ | ⟨hwords, hpower, hvalue⟩ := h
  · refine ⟨term.magnitude, term.words, term.value, (0, 0, 1), ?_, by decide, rfl, rfl, by simp⟩
    simp only [IsFactor]
    omega
  · exact ⟨2, term.words, term.value, (0, 0, 1), .inr (.inr ⟨rfl, hdigits⟩), by decide,
      hmagnitude, rfl, by simp⟩
  · -- A word for a power of a thousand multiplies a one that is not there.
    have hscale := mem_scales_of_lt (0, 0, 1) (by decide) term.magnitude hpower (by
      simp only [List.mem_cons, List.not_mem_nil, or_false] at hpower
      omega)
    exact ⟨0, 0, 1, _, .inl ⟨rfl, by decide⟩, hscale, by simp, by simp [hwords], by simp [hvalue]⟩

/-- A product with one more power of a thousand behind it is a product. -/
theorem Term.IsProduct.join (hterm : term.IsProduct) (hnext : next.IsScale)
    (hlt : term.magnitude < next.magnitude) :
    (term.join next (term.value * next.value) (term.magnitude + next.magnitude)).IsProduct := by
  obtain ⟨magnitude, words, value, scale, hfactor, hscale, hmagnitude, hwords, hvalue⟩ := hterm
  obtain ⟨hword, hpower, hnext⟩ := hnext
  have hscale' := mem_scales_of_lt scale hscale next.magnitude hpower (by omega)
  refine ⟨magnitude, words, value, _, hfactor, hscale', ?_, ?_, ?_⟩
  · simp only [magnitude_join, hmagnitude, Nat.add_assoc]
  · simp only [words_join, hwords, hword, Nat.add_assoc]
  · simp only [value_join, hvalue, hnext, Nat.mul_assoc]

/-- The fourth pass makes products, and goes on with each as long as greater powers follow. -/
theorem stage_multiples : Stage (multiples .exact) true (Term.IsPart 2 AreDigits)
    Term.IsProduct Term.IsProduct Leads where
  start _ h := h.isProduct
  leave _ h := h
  join term next value magnitude hterm hnext hleads hmeet := by
    obtain ⟨hlt, rfl, rfl⟩ := of_multiples_join hmeet
    -- What is greater than hundreds, or is behind a small term, is a power of a thousand.
    have hscale : next.IsScale := hnext.isScale (by unfold Leads at hleads; omega)
    have hjoined := hterm.join hscale hlt
    -- A product is followed by whatever there is, as it is in the thousands at least.
    refine ⟨hjoined, fun _ => ⟨hjoined, fun third _ hsmall => ?_⟩⟩
    have := hscale.three_le
    rw [magnitude_join] at hsmall
    omega

/-- A pass that makes hundreds keeps or brings about that nothing small is followed by anything
    small. -/
theorem isChain_of_pass {meet : Term → Term → Meeting} {Leads' : Term → Term → Prop}
    (hapart : ∀ term next, Leads' term next → meet term next = .apart → Leads term next)
    (hjoin : ∀ term next value magnitude, meet term next = .join value magnitude →
      term.magnitude ≤ 2 ∧ magnitude = 2)
    (hleads : (term :: rest).IsChain Leads') (h : pass meet false term rest = .ok terms) :
    terms.IsChain Leads ∧ ∀ before, Leads before term → ∀ head ∈ terms.head?, Leads before head := by
  -- The head that a pass leaves is the first term, or that term joined to the next one.
  fun_induction pass meet false term rest generalizing terms with
  | case1 term =>
    cases h
    exact ⟨.singleton _, by simp⟩
  | case2 term next rest hmeet ih =>
    obtain ⟨terms', hpass, rfl⟩ := map_eq_ok_iff.mp h
    rw [List.isChain_cons_cons] at hleads
    obtain ⟨hchain, hhead⟩ := ih hleads.2 hpass
    -- Terms stay apart in such a way, and the head is the term itself.
    exact ⟨hchain.cons (hhead term (hapart term next hleads.1 hmeet)), by simp⟩
  | case3 => cases h
  | case4 => contradiction
  | case5 term next value magnitude hmeet =>
    cases h
    obtain ⟨hterm, hmagnitude⟩ := hjoin term next value magnitude hmeet
    -- What is joined to another term is not in the thousands, so nothing small is before it.
    refine ⟨.singleton _, fun before hbefore head hhead hsmall => ?_⟩
    have := hbefore hsmall
    omega
  | case6 term next value magnitude hmeet _ _ third rest =>
    rename_i ih
    obtain ⟨terms', hpass, rfl⟩ := map_eq_ok_iff.mp h
    obtain ⟨hterm, rfl⟩ := hjoin term next value magnitude hmeet
    rw [List.isChain_cons_cons, List.isChain_cons_cons] at hleads
    obtain ⟨hchain, -⟩ := ih hleads.2.2 hpass
    refine ⟨hchain.cons fun head _ hsmall => ?_, fun before hbefore head _ hsmall => ?_⟩
    · rw [magnitude_join] at hsmall
      omega
    · have := hbefore hsmall
      omega

/-- The same holds of a group that may be empty. -/
theorem isChain_of_passAll {meet : Term → Term → Meeting} {Leads' : Term → Term → Prop}
    (hapart : ∀ term next, Leads' term next → meet term next = .apart → Leads term next)
    (hjoin : ∀ term next value magnitude, meet term next = .join value magnitude →
      term.magnitude ≤ 2 ∧ magnitude = 2)
    (hleads : terms.IsChain Leads') {left : List Term} (h : passAll meet false terms = .ok left) :
    left.IsChain Leads := by
  cases terms with
  | nil =>
    cases h
    exact .nil
  | cons term rest => exact (isChain_of_pass hapart hjoin hleads h).1

end Verse.Number
