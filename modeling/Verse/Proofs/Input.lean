import Mathlib.Data.List.DropRight
import Mathlib.Logic.Function.Iterate
import Verse.Input

/-!
# Reading a line to its end

The values that are read from an input are cut off its line one after the other: each is the
longest numeral that the rest of the line starts with, or a single character where there is
none.  Only spaces and tabs are lost between them.

* `Numeral.IsDecimal`             the form of a numeral
* `Numeral.length_le_of_read?`    `Numeral.read?` finds the longest numeral
* `Input.Takes`                   the value at the start of a text
* `Input.Covers`                  a line, cut into values and the gaps between them
* `Input.exists_drains`           reading ends, and has covered the line
* `reading_is_lossless`           the above, and what asking whether a value is left changes
-/

namespace Verse

namespace Numeral

/-! ## The longest numeral -/

/-- The form `[+-]digits[.digits]`.  A numeral without digits in its fraction has no point. -/
structure IsDecimal (numeral : Numeral) : Prop where
  sign : ∀ c ∈ numeral.sign, c = '+' ∨ c = '-'
  whole_ne_nil : numeral.whole ≠ []
  whole_digits : ∀ c ∈ numeral.whole, c.isDigit = true
  fraction_digits : ∀ c ∈ numeral.fraction, c.isDigit = true

example : (⟨some '-', ['3'], ['2', '5']⟩ : Numeral).chars = "-3.25".toList := by decide

/-- The fraction of a numeral with the point before it, if there is one. -/
def pointed (fraction : List Char) : List Char :=
  if fraction.isEmpty then [] else '.' :: fraction

/-- The characters of a numeral are its sign, its digits and its fraction with the point. -/
theorem chars_eq (numeral : Numeral) :
    numeral.chars = numeral.sign.toList ++ (numeral.whole ++ pointed numeral.fraction) := by
  rw [chars, pointed, List.append_assoc]

/-- A numeral has a character. -/
theorem IsDecimal.chars_ne_nil {numeral : Numeral} (h : numeral.IsDecimal) :
    numeral.chars ≠ [] := by
  simp [chars_eq, h.whole_ne_nil]

/-- A numeral is made of signs, digits and points. -/
theorem IsDecimal.forall_chars {numeral : Numeral} (h : numeral.IsDecimal) {p : Char → Prop}
    (hplus : p '+') (hminus : p '-') (hpoint : p '.') (hdigit : ∀ c, c.isDigit = true → p c) :
    ∀ c ∈ numeral.chars, p c := by
  intro c hc
  simp only [chars_eq, pointed, List.mem_append, Option.mem_toList] at hc
  obtain hsign | hwhole | hpointed := hc
  · obtain rfl | rfl := h.sign c hsign
    · exact hplus
    · exact hminus
  · exact hdigit c (h.whole_digits c hwhole)
  · split at hpointed
    · cases hpointed
    · obtain rfl | hfraction := List.mem_cons.mp hpointed
      · exact hpoint
      · exact hdigit c (h.fraction_digits c hfraction)

/-- What is found as a sign is at the start of the text, and is one. -/
theorem sign?_spec (text : List Char) :
    text = (sign? text).toList ++ text.drop (sign? text).toList.length ∧
      ∀ c ∈ sign? text, c = '+' ∨ c = '-' := by
  unfold sign?
  split <;> simp

/-- A digit is no sign. -/
theorem sign?_of_isDigit {c : Char} (h : c.isDigit = true) (rest : List Char) :
    sign? (c :: rest) = none := by
  unfold sign?
  split
  · next heq => obtain ⟨rfl, -⟩ := List.cons.inj heq; exact absurd h (by decide)
  · next heq => obtain ⟨rfl, -⟩ := List.cons.inj heq; exact absurd h (by decide)
  · rfl

/-- What is found as a fraction is behind a point, and is made of digits. -/
theorem fractionOf_spec (text : List Char) :
    (∃ rest, text = pointed (fractionOf text) ++ rest) ∧
      ∀ c ∈ fractionOf text, c.isDigit = true := by
  unfold fractionOf
  split
  case h_1 digits =>
    refine ⟨?_, fun c hc => List.mem_takeWhile_imp hc⟩
    cases hdigits : digits.takeWhile Char.isDigit with
    -- A point without digits behind it belongs to what is left.
    | nil => exact ⟨'.' :: digits, rfl⟩
    | cons c fraction =>
      refine ⟨digits.dropWhile Char.isDigit, ?_⟩
      rw [pointed, List.isEmpty_cons, if_neg (by simp), ← hdigits, List.cons_append,
        List.takeWhile_append_dropWhile]
  case h_2 => exact ⟨⟨text, rfl⟩, by simp⟩

/-- What is found at the start of a text has the form of a numeral. -/
theorem isDecimal_of_read? {text : List Char} {numeral : Numeral}
    (h : read? text = some numeral) :
    numeral.IsDecimal ∧ ∃ rest, text = numeral.chars ++ rest := by
  obtain ⟨htext, hsign⟩ := sign?_spec text
  obtain ⟨⟨rest, hrest⟩, hfraction⟩ := fractionOf_spec
    ((text.drop (sign? text).toList.length).dropWhile Char.isDigit)
  simp only [read?] at h
  split at h
  · cases h
  · next hwhole =>
    cases h
    refine ⟨⟨hsign, by simpa using hwhole, fun c hc => List.mem_takeWhile_imp hc, hfraction⟩,
      rest, ?_⟩
    rw [chars_eq, List.append_assoc, List.append_assoc, ← hrest, List.takeWhile_append_dropWhile,
      ← htext]

/-- A numeral's sign and first digits decide what is found. -/
theorem read?_sign_append {sign : Option Char} (hsign : ∀ c ∈ sign, c = '+' ∨ c = '-')
    {digits : List Char} (hne : digits ≠ []) (hdigits : ∀ c ∈ digits, c.isDigit = true)
    (rest : List Char) :
    read? (sign.toList ++ (digits ++ rest)) =
      some ⟨sign, digits ++ rest.takeWhile Char.isDigit,
        fractionOf (rest.dropWhile Char.isDigit)⟩ := by
  have hfound : sign? (sign.toList ++ (digits ++ rest)) = sign := by
    cases sign with
    | some c => obtain rfl | rfl := hsign c rfl <;> rfl
    | none =>
      -- The text begins with one of the digits.
      obtain ⟨c, digits, rfl⟩ := List.exists_cons_of_ne_nil hne
      exact sign?_of_isDigit (hdigits c List.mem_cons_self) _
  simp only [read?, hfound, List.drop_left, List.takeWhile_append_of_pos hdigits,
    List.dropWhile_append_of_pos hdigits]
  rw [if_neg (by simp [hne])]

/-- A numeral is read on from its end: its fraction, or else its whole part and then a fraction. -/
theorem read?_chars_append {numeral : Numeral} (h : numeral.IsDecimal) (rest : List Char) :
    read? (numeral.chars ++ rest) = some (
      if numeral.fraction = [] then
        ⟨numeral.sign, numeral.whole ++ rest.takeWhile Char.isDigit,
          fractionOf (rest.dropWhile Char.isDigit)⟩
      else
        { numeral with fraction := numeral.fraction ++ rest.takeWhile Char.isDigit }) := by
  have hread := read?_sign_append h.sign h.whole_ne_nil h.whole_digits
    (pointed numeral.fraction ++ rest)
  rw [← List.append_assoc numeral.whole, ← List.append_assoc, ← chars_eq] at hread
  rw [hread]
  by_cases hfraction : numeral.fraction = []
  · simp [pointed, hfraction]
  · -- The digits before the point are all there are, so its fraction is read on from there.
    have hpointed : pointed numeral.fraction = '.' :: numeral.fraction := by
      simp [pointed, hfraction]
    have hpoint : ¬ Char.isDigit '.' := by decide
    rw [if_neg hfraction]
    simp only [hpointed, List.cons_append, List.takeWhile_cons_of_neg hpoint,
      List.dropWhile_cons_of_neg hpoint, fractionOf,
      List.takeWhile_append_of_pos h.fraction_digits, List.append_nil]

/-- Where a text starts with a numeral, one is found, and it is as long as any. -/
theorem length_le_of_read? {numeral : Numeral} (h : numeral.IsDecimal) (rest : List Char) :
    ∃ longest, read? (numeral.chars ++ rest) = some longest ∧
      numeral.chars.length ≤ longest.chars.length := by
  refine ⟨_, read?_chars_append h rest, ?_⟩
  split
  case isTrue hfraction => simp [chars_eq, pointed, hfraction]
  case isFalse hfraction => simp [chars_eq, pointed, hfraction]

/-- Of a text that does not begin with a point, no fraction is read. -/
theorem fractionOf_of_head? {text : List Char} (h : ∀ c ∈ text.head?, c ≠ '.') :
    fractionOf text = [] := by
  unfold fractionOf
  split
  case h_1 => exact absurd rfl (h '.' rfl)
  case h_2 => rfl

/-- A text that begins with none of the characters looked for. -/
theorem span_of_head? {p : Char → Bool} {text : List Char} (h : ∀ c ∈ text.head?, p c = false) :
    text.takeWhile p = [] ∧ text.dropWhile p = text := by
  cases text with
  | nil => exact ⟨rfl, rfl⟩
  | cons c rest =>
    have hc : ¬ p c = true := by simp [h c rfl]
    exact ⟨List.takeWhile_cons_of_neg hc, List.dropWhile_cons_of_neg hc⟩

end Numeral

namespace Input

/-! ## One value -/

/-- Whether a character ends the line. -/
def isBreak (c : Char) : Bool :=
  c == '\n' || c == '\r'

/-- A text up to its first line feed or carriage return. -/
def lineOf (text : List Char) : List Char :=
  text.takeWhile (!isBreak ·)

/-- A space or a tab is no digit. -/
theorem not_isDigit_of_isGap {c : Char} (h : isGap c = true) : c.isDigit = false := by
  simp only [isGap, Bool.or_eq_true, beq_iff_eq] at h
  obtain rfl | rfl := h <;> decide

/-- A line feed or a carriage return is no digit. -/
theorem not_isDigit_of_isBreak {c : Char} (h : isBreak c = true) : c.isDigit = false := by
  simp only [isBreak, Bool.or_eq_true, beq_iff_eq] at h
  obtain rfl | rfl := h <;> decide

/-- There are no gaps in a numeral, and no breaks. -/
theorem not_isGap_not_isBreak_of_isDecimal {numeral : Numeral} (h : numeral.IsDecimal) :
    ∀ c ∈ numeral.chars, isGap c = false ∧ isBreak c = false := by
  refine h.forall_chars (by decide) (by decide) (by decide) fun c hc => ⟨?_, ?_⟩
  · rw [Bool.eq_false_iff]
    intro hgap
    rw [not_isDigit_of_isGap hgap] at hc
    cases hc
  · rw [Bool.eq_false_iff]
    intro hbreak
    rw [not_isDigit_of_isBreak hbreak] at hc
    cases hc

/-- The value at the start of a text, and the text after it: the longest numeral, or a single
    character, which then stands for its code point. -/
inductive Takes : List Char → InputEvent → List Char → Prop where
  | number {numeral : Numeral} {rest : List Char} (form : numeral.IsDecimal)
      (longest : ∀ other : Numeral, other.IsDecimal → other.chars <+: numeral.chars ++ rest →
        other.chars.length ≤ numeral.chars.length) :
      Takes (numeral.chars ++ rest) ⟨String.ofList numeral.chars, numeral.value⟩ rest
  | character {c : Char} {rest : List Char}
      (unnumbered : ∀ other : Numeral, other.IsDecimal → ¬ other.chars <+: c :: rest) :
      Takes (c :: rest) ⟨String.singleton c, Float.ofNat c.toNat⟩ rest

/-- A text that is not empty has a value at its start. -/
theorem exists_takes {text : List Char} (h : text ≠ []) :
    ∃ event rest, nextEvent text = some (event, rest) ∧ Takes text event rest := by
  obtain ⟨c, rest, rfl⟩ := List.exists_cons_of_ne_nil h
  cases hread : Numeral.read? (c :: rest) with
  | some numeral =>
    obtain ⟨hdecimal, after, htext⟩ := Numeral.isDecimal_of_read? hread
    refine ⟨⟨String.ofList numeral.chars, numeral.value⟩, after, ?_, ?_⟩
    · rw [nextEvent, hread]
      simp only [htext, List.drop_left]
    · rw [htext] at hread ⊢
      refine .number hdecimal ?_
      -- Where the text starts with another numeral, the same one is found, and is as long.
      rintro other hother ⟨beyond, hbeyond⟩
      obtain ⟨longest, hlongest, hle⟩ := Numeral.length_le_of_read? hother beyond
      rw [hbeyond, hread] at hlongest
      cases hlongest
      exact hle
  | none =>
    refine ⟨⟨String.singleton c, Float.ofNat c.toNat⟩, rest, ?_, .character ?_⟩
    · rw [nextEvent, hread]
    · rintro other hother ⟨beyond, hbeyond⟩
      obtain ⟨longest, hlongest, -⟩ := Numeral.length_le_of_read? hother beyond
      rw [hbeyond, hread] at hlongest
      cases hlongest

section

variable {text rest : List Char} {event : InputEvent}

/-- A text is the value at its start and what is left. -/
theorem Takes.append (h : Takes text event rest) : text = event.text.toList ++ rest := by
  cases h with
  | number => rw [String.toList_ofList]
  | character => rw [String.toList_singleton, List.singleton_append]

/-- A value has a character. -/
theorem Takes.text_ne_nil (h : Takes text event rest) : event.text.toList ≠ [] := by
  cases h with
  | number form => simpa using form.chars_ne_nil
  | character => simp

/-- A value leaves less than there was. -/
theorem Takes.length_lt (h : Takes text event rest) : rest.length < text.length := by
  have hpos := List.length_pos_iff.mpr h.text_ne_nil
  rw [h.append, List.length_append]
  omega

/-- A value that starts outside a gap has no gap in it. -/
theorem Takes.forall_not_isGap (h : Takes text event rest)
    (hhead : ∀ c ∈ text.head?, isGap c = false) : ∀ c ∈ event.text.toList, isGap c = false := by
  cases h with
  | number form =>
    rw [String.toList_ofList]
    exact fun c hc => (not_isGap_not_isBreak_of_isDecimal form c hc).1
  | @character c => simpa using hhead c rfl

/-- The line before a break is empty. -/
theorem lineOf_cons_of_isBreak {c : Char} (h : isBreak c = true) : lineOf (c :: rest) = [] := by
  simp [lineOf, h]

/-- A text without breaks is part of its line. -/
theorem lineOf_append (h : ∀ c ∈ text, isBreak c = false) :
    lineOf (text ++ rest) = text ++ lineOf rest := by
  rw [lineOf, List.takeWhile_append_of_pos (by simpa using h), lineOf]

/-- A line is the start of its text. -/
theorem lineOf_prefix_text (text : List Char) : lineOf text <+: text :=
  List.takeWhile_prefix _

/-- No value goes on past its line, so what comes after the line does not matter to it. -/
theorem Takes.lineOf (h : Takes text event rest)
    (hhead : ∀ c ∈ text.head?, isBreak c = false) :
    Takes (lineOf text) event (lineOf rest) := by
  cases h with
  | @number numeral rest form longest =>
    have hbreak : ∀ c ∈ numeral.chars, isBreak c = false :=
      fun c hc => (not_isGap_not_isBreak_of_isDecimal form c hc).2
    rw [lineOf_append hbreak]
    refine .number form fun other hother hstarts => longest other hother (hstarts.trans ?_)
    exact (List.prefix_append_right_inj _).mpr (lineOf_prefix_text rest)
  | @character c rest unnumbered =>
    have hc : ∀ d ∈ [c], isBreak d = false := by simpa using hhead c rfl
    have hline : Input.lineOf (c :: rest) = c :: Input.lineOf rest :=
      lineOf_append hc
    rw [hline]
    refine .character fun other hother hstarts => unnumbered other hother (hstarts.trans ?_)
    exact (List.prefix_append_right_inj [c]).mpr (lineOf_prefix_text rest)

end

/-! ## One reading -/

/-- The line is at its end where the text is, and at a break. -/
theorem isEnd_iff {text : List Char} :
    isEnd text = true ↔ text = [] ∨ ∃ c rest, text = c :: rest ∧ isBreak c = true := by
  cases text with
  | nil => simp [isEnd]
  | cons c rest => simp [isEnd, isBreak]

/-- The gap is skipped once and for all. -/
theorem pending_advance (input : Input) : input.advance.pending = input.pending :=
  List.dropWhile_idempotent _ _

/-- A reading finds no value where the input is exhausted, and otherwise the value at the start
    of what is pending. -/
theorem read_cases (input : Input) :
    (input.isExhausted = true ∧ input.read = (none, input.advance)) ∨
      (input.isExhausted = false ∧ ∃ event rest,
        Takes input.pending event rest ∧ input.read = (some event, .text rest)) := by
  cases hexhausted : input.isExhausted with
  | true => exact .inl ⟨rfl, by rw [read, if_pos hexhausted]⟩
  -- What is pending has a first character, since an empty text is at its end.
  | false =>
    have hne : input.pending ≠ [] := by
      intro hnil
      simp [isExhausted, hnil, isEnd] at hexhausted
    obtain ⟨event, rest, hnext, htakes⟩ := exists_takes hne
    refine .inr ⟨rfl, event, rest, htakes, ?_⟩
    rw [read, hexhausted, if_neg (by simp), hnext]

/-- An input is exhausted just when the next reading finds nothing. -/
theorem isExhausted_iff (input : Input) : input.isExhausted = true ↔ input.read.1 = none := by
  obtain ⟨hexhausted, hread⟩ | ⟨hexhausted, event, rest, -, hread⟩ := read_cases input
  · simp [hexhausted, hread]
  · simp [hexhausted, hread]

/-! ## A whole line -/

/-- A line as gaps and values: a gap before each value, and one at the end. -/
inductive Covers : List Char → List InputEvent → Prop where
  | done {gap : List Char} (skipped : ∀ c ∈ gap, isGap c = true) : Covers gap []
  | value {gap text rest : List Char} {event : InputEvent} {events : List InputEvent}
      (skipped : ∀ c ∈ gap, isGap c = true) (outside : ∀ c ∈ text.head?, isGap c = false)
      (taken : Takes text event rest) (later : Covers rest events) :
      Covers (gap ++ text) (event :: events)

section

variable {line : List Char} {events : List InputEvent}

/-- Nothing is left of a gap without its gaps. -/
theorem filter_of_isGap {gap : List Char} (h : ∀ c ∈ gap, isGap c = true) :
    gap.filter (!isGap ·) = [] := by
  simpa using h

/-- Nothing but spaces and tabs is lost. -/
theorem Covers.flatMap_text (h : Covers line events) :
    events.flatMap (·.text.toList) = line.filter (!isGap ·) := by
  induction h with
  | done skipped => rw [filter_of_isGap skipped, List.flatMap_nil]
  | @value gap text rest event events skipped outside taken later ih =>
    -- The gap goes, and the value stays as a whole.
    have hkept : event.text.toList.filter (!isGap ·) = event.text.toList :=
      List.filter_eq_self.mpr fun c hc => by simp [taken.forall_not_isGap outside c hc]
    rw [List.flatMap_cons, ih, List.filter_append, filter_of_isGap skipped, List.nil_append,
      taken.append, List.filter_append, hkept]

/-- There are no more values than characters. -/
theorem Covers.length_le (h : Covers line events) : events.length ≤ line.length := by
  induction h with
  | done => exact Nat.zero_le _
  | value skipped outside taken later ih =>
    have hlt := taken.length_lt
    rw [List.length_cons, List.length_append]
    omega

end

/-- Reading until nothing is found: the values, and the input after the last reading. -/
inductive Drains : Input → List InputEvent → Input → Prop where
  | done {input final : Input} (h : input.read = (none, final)) : Drains input [] final
  | value {input next final : Input} {event : InputEvent} {events : List InputEvent}
      (h : input.read = (some event, next)) (later : Drains next events final) :
      Drains input (event :: events) final

/-- The line of an input is a gap and then the line of what is pending. -/
theorem lineOf_rest (input : Input) :
    ∃ gap, (∀ c ∈ gap, isGap c = true) ∧
      lineOf input.rest = gap ++ lineOf input.pending := by
  refine ⟨input.rest.takeWhile isGap, fun c hc => List.mem_takeWhile_imp hc, ?_⟩
  rw [pending, ← lineOf_append, List.takeWhile_append_dropWhile]
  intro c hc
  have hgap := List.mem_takeWhile_imp hc
  simp only [isGap, Bool.or_eq_true, beq_iff_eq] at hgap
  obtain rfl | rfl := hgap <;> rfl

/-- What is pending does not begin with a gap. -/
theorem not_isGap_of_mem_pending (input : Input) :
    ∀ c ∈ input.pending.head?, isGap c = false := by
  intro c hc
  have hnot := List.head?_dropWhile_not isGap input.rest
  rw [pending] at hc
  simpa [Option.mem_def.mp hc] using hnot

/-- Reading ends, and has then covered the line. -/
theorem exists_drains (input : Input) :
    ∃ events final, Drains input events final ∧ Covers (lineOf input.rest) events ∧
      final.isExhausted = true := by
  -- Each reading that finds a value leaves a shorter text behind.
  induction hlength : input.rest.length using Nat.strong_induction_on generalizing input with
  | _ n ih =>
    obtain ⟨gap, hgap, hline⟩ := lineOf_rest input
    obtain ⟨hexhausted, hread⟩ | ⟨hexhausted, event, rest, htakes, hread⟩ := read_cases input
    · -- The line is at its end, and what there was of it is a gap.
      refine ⟨[], input.advance, .done hread, ?_, ?_⟩
      · have hnil : lineOf input.pending = [] := by
          obtain hnil | ⟨c, rest, hcons, hbreak⟩ := isEnd_iff.mp hexhausted
          · rw [hnil]; rfl
          · rw [hcons, lineOf_cons_of_isBreak hbreak]
        rw [hline, hnil, List.append_nil]
        exact .done hgap
      · rwa [isExhausted, pending_advance]
    · -- A value is found, and what is left behind it is shorter.
      have hlt : rest.length < n := calc
        rest.length < input.pending.length := htakes.length_lt
        _ ≤ input.rest.length := (List.dropWhile_suffix _).length_le
        _ = n := hlength
      obtain ⟨events, final, hdrains, hcovers, hfinal⟩ := ih _ hlt (.text rest) rfl
      refine ⟨event :: events, final, .value hread hdrains, ?_, hfinal⟩
      -- The reading looks at all of the text, but takes what it would take of the line alone.
      have hbreak : ∀ c ∈ input.pending.head?, isBreak c = false := by
        intro c hc
        obtain ⟨text, htext⟩ := List.head?_eq_some_iff.mp hc
        simpa [isExhausted, htext, isEnd, isBreak] using hexhausted
      rw [hline]
      refine .value hgap ?_ (htakes.lineOf hbreak) hcovers
      intro c hc
      rw [lineOf, List.head?_takeWhile, Option.mem_def, Option.filter_eq_some_iff] at hc
      exact not_isGap_of_mem_pending input c hc.1

/-! ## Reading and asking -/

/-- What can be done with an input. -/
inductive Call where
  | read
  | isExhausted

/-- What comes back. -/
inductive Answer where
  | read (event : Option InputEvent)
  | isExhausted (exhausted : Bool)

/-- The answer to a call, and the input after it. -/
def call (input : Input) : Call → Answer × Input
  | .read => (.read input.read.1, input.read.2)
  | .isExhausted => (.isExhausted input.isExhausted, input.advance)

/-- The input after some calls. -/
def after (input : Input) (calls : List Call) : Input :=
  calls.foldl (fun input call => (input.call call).2) input

/-- The answers to some calls. -/
def answers (input : Input) : List Call → List Answer
  | [] => []
  | call :: calls => (input.call call).1 :: (input.call call).2.answers calls

/-- It makes no difference to a call whether the gap before the next value is skipped. -/
theorem call_advance (input : Input) (call : Call) :
    input.advance.call call = input.call call := by
  have hexhausted : input.advance.isExhausted = input.isExhausted := by
    rw [isExhausted, pending_advance, isExhausted]
  have hadvance : input.advance.advance = input.advance := by
    rw [advance, pending_advance, advance]
  cases call with
  | read => simp only [Input.call, read, hexhausted, hadvance, pending_advance]
  | isExhausted => simp only [Input.call, hexhausted, hadvance]

/-- Asking any number of times whether a value is left changes no later answer. -/
theorem answers_advance (input : Input) (count : Nat) (calls : List Call) :
    (advance^[count] input).answers calls = input.answers calls := by
  induction count generalizing input with
  | zero => rfl
  | succ count ih =>
    rw [Function.iterate_succ_apply, ih]
    cases calls with
    | nil => rfl
    | cons call calls => rw [answers, answers, call_advance]

/-- Once exhausted, always exhausted. -/
theorem isExhausted_after {input : Input} (h : input.isExhausted = true) (calls : List Call) :
    (input.after calls).isExhausted = true := by
  induction calls generalizing input with
  | nil => exact h
  | cons call calls ih =>
    have hnext : (input.call call).2 = input.advance := by
      cases call with
      | read => rw [Input.call, read, if_pos h]
      | isExhausted => rfl
    rw [after, List.foldl_cons, hnext]
    exact ih (by rwa [isExhausted, pending_advance])

/-- The values read from a text until there is none cover its line up to the first line feed or
    carriage return, and there is none ever after.  At any moment the input is exhausted just when
    the next reading would find nothing, and asking that changes nothing. -/
theorem reading_is_lossless (text : String) :
    (∃ events final,
      Drains (ofText text) events final ∧
      events.length ≤ (lineOf text.toList).length ∧
      events.flatMap (·.text.toList) = (lineOf text.toList).filter (!isGap ·) ∧
      Covers (lineOf text.toList) events ∧
      ∀ calls, (final.after calls).read.1 = none) ∧
    ∀ calls,
      (((ofText text).after calls).isExhausted = true ↔
        ((ofText text).after calls).read.1 = none) ∧
      ∀ count later,
        (advance^[count] ((ofText text).after calls)).answers later =
          ((ofText text).after calls).answers later := by
  refine ⟨?_, fun calls => ⟨isExhausted_iff _, fun count later => answers_advance _ count later⟩⟩
  obtain ⟨events, final, hdrains, hcovers, hfinal⟩ := exists_drains (ofText text)
  refine ⟨events, final, hdrains, hcovers.length_le, hcovers.flatMap_text, hcovers, ?_⟩
  intro calls
  exact (isExhausted_iff _).mp (isExhausted_after hfinal calls)

end Input

end Verse
