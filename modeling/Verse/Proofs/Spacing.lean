import Verse.Proofs.Input

/-!
# Values between gaps

What is read from an input can be written down again with gaps between the values, and the same
values are read from that.  A value is a numeral, or a character that is no digit; where a gap or
the end of the text follows, neither is read any further, nor is a character taken for the start
of a numeral.

* `Input.IsValue`             what can be read as a value
* `nextEvent_of_isValue`      a value is read whole where it stands apart from what follows
* `Input.Spaced`              words with gaps between them
* `exists_drains_of_spaced`   values with gaps between them are read one by one
* `rereading_is_stable`       the above, for what has been read and for numerals
-/

namespace Verse

/-- A text that can come after a value without being read along: none, or one that begins with a
    gap. -/
def Apart (tail : List Char) : Prop :=
  ∀ c ∈ tail.head?, Input.isGap c = true

/-- A gap that is not empty sets a value apart from whatever comes behind it. -/
theorem apart_append {gap : List Char} (hne : gap ≠ [])
    (hgap : ∀ c ∈ gap, Input.isGap c = true) (rest : List Char) : Apart (gap ++ rest) := by
  obtain ⟨first, gap, rfl⟩ := List.exists_cons_of_ne_nil hne
  intro c hc
  obtain rfl : first = c := Option.some.inj hc
  exact hgap first List.mem_cons_self

namespace Numeral

variable {tail : List Char} (htail : Apart tail)
include htail

/-- Apart from a value there are no digits to be read along. -/
theorem span_isDigit_of_apart :
    tail.takeWhile Char.isDigit = [] ∧ tail.dropWhile Char.isDigit = tail :=
  span_of_head? fun c hc => Input.not_isDigit_of_isGap (htail c hc)

/-- A numeral is read whole, and no further than to the gap behind it. -/
theorem read?_chars_of_apart {numeral : Numeral} (h : numeral.IsDecimal) :
    read? (numeral.chars ++ tail) = some numeral := by
  obtain ⟨htake, hdrop⟩ := span_isDigit_of_apart htail
  -- A gap does not begin with a point, so it gives no fraction.
  have hfraction : fractionOf tail = [] := by
    refine fractionOf_of_head? fun c hc => ?_
    rintro rfl
    exact absurd (htail '.' hc) (by decide)
  rw [read?_chars_append h, htake, hdrop, hfraction, List.append_nil, List.append_nil]
  split
  case isTrue hnil => rw [← hnil]
  case isFalse => rfl

/-- No numeral begins with a character that is no digit and has a gap behind it. -/
theorem read?_cons_of_apart {c : Char} (hdigit : c.isDigit = false) :
    read? (c :: tail) = none := by
  obtain ⟨htake, -⟩ := span_isDigit_of_apart htail
  have hwhole :
      ((c :: tail).drop (sign? (c :: tail)).toList.length).takeWhile Char.isDigit = [] := by
    unfold sign?
    split
    -- A sign is passed over, and what is behind it is no digit either.
    case h_1 heq | h_2 heq =>
      obtain ⟨-, rfl⟩ := List.cons.inj heq
      exact htake
    case h_3 => exact List.takeWhile_cons_of_neg (by simp [hdigit])
  simp only [read?, hwhole, List.isEmpty_nil, if_true]

end Numeral

namespace Input

/-! ## Values -/

/-- The value that a numeral is read as. -/
def ofNumeral (numeral : Numeral) : InputEvent :=
  ⟨String.ofList numeral.chars, numeral.value⟩

/-- What can be read as a value: a numeral, or else a character of the line that is neither a
    digit nor part of a gap. -/
inductive IsValue : InputEvent → Prop where
  | number {numeral : Numeral} (form : numeral.IsDecimal) : IsValue (ofNumeral numeral)
  | character {c : Char} (digit : c.isDigit = false) (gap : isGap c = false)
      (inLine : isBreak c = false) : IsValue ⟨String.singleton c, Float.ofNat c.toNat⟩

/-- A value has a text, and that begins in the line and outside a gap. -/
theorem IsValue.exists_cons {event : InputEvent} (h : IsValue event) :
    ∃ c rest, event.text.toList = c :: rest ∧ isGap c = false ∧ isBreak c = false := by
  cases h with
  | @number numeral form =>
    obtain ⟨c, rest, hcons⟩ := List.exists_cons_of_ne_nil form.chars_ne_nil
    refine ⟨c, rest, ?_, not_isGap_not_isBreak_of_isDecimal form c (by simp [hcons])⟩
    rw [ofNumeral, String.toList_ofList, hcons]
  | @character c _ hgap hline => exact ⟨c, [], String.toList_singleton c, hgap, hline⟩

/-- What is taken from a text that begins in the line and outside a gap is a value. -/
theorem Takes.isValue {text rest : List Char} {event : InputEvent} (h : Takes text event rest)
    (hhead : ∀ c ∈ text.head?, isGap c = false ∧ isBreak c = false) : IsValue event := by
  cases h with
  | number form => exact .number form
  | @character c rest unnumbered =>
    obtain ⟨hgap, hline⟩ := hhead c rfl
    refine .character ?_ hgap hline
    -- A digit alone would be a numeral that the text begins with.
    by_contra hdigit
    rw [Bool.not_eq_false] at hdigit
    have hdecimal : Numeral.IsDecimal ⟨none, [c], []⟩ :=
      ⟨by simp, by simp, by simpa using hdigit, by simp⟩
    exact unnumbered ⟨none, [c], []⟩ hdecimal ⟨rest, rfl⟩

/-- A value that stands apart from what follows is what is read. -/
theorem nextEvent_of_isValue {event : InputEvent} (h : IsValue event) {tail : List Char}
    (htail : Apart tail) : nextEvent (event.text.toList ++ tail) = some (event, tail) := by
  cases h with
  | @number numeral form =>
    rw [ofNumeral, String.toList_ofList]
    have hread := Numeral.read?_chars_of_apart htail form
    obtain ⟨c, rest, hcons⟩ :=
      List.exists_cons_of_ne_nil (List.append_ne_nil_of_left_ne_nil form.chars_ne_nil tail)
    rw [hcons] at hread ⊢
    rw [nextEvent, hread, ← hcons]
    simp only [List.drop_left]
  | @character c digit =>
    rw [String.toList_singleton, List.singleton_append, nextEvent,
      Numeral.read?_cons_of_apart htail digit]

/-- A value behind any gap is read, and what follows is left. -/
theorem read_of_isValue {event : InputEvent} (h : IsValue event) {gap tail : List Char}
    (hgap : ∀ c ∈ gap, isGap c = true) (htail : Apart tail) :
    (Input.text (gap ++ (event.text.toList ++ tail))).read = (some event, .text tail) := by
  obtain ⟨c, rest, hcons, hc, hline⟩ := h.exists_cons
  have hpending : (Input.text (gap ++ (event.text.toList ++ tail))).pending =
      event.text.toList ++ tail := by
    rw [pending, Input.rest, List.dropWhile_append_of_pos hgap, hcons, List.cons_append,
      List.dropWhile_cons_of_neg (by simp [hc])]
  -- The value begins in the line, so the input is not exhausted there.
  have hexhausted : isEnd (event.text.toList ++ tail) = false := by
    rw [hcons]
    exact hline
  rw [read, isExhausted, hpending, hexhausted, if_neg Bool.false_ne_true,
    nextEvent_of_isValue h htail]

/-- Whatever is read is a value. -/
theorem isValue_of_read {input next : Input} {event : InputEvent}
    (h : input.read = (some event, next)) : IsValue event := by
  obtain ⟨-, hread⟩ | ⟨hexhausted, event', rest, htakes, hread⟩ := read_cases input
  · rw [h] at hread
    cases hread
  · obtain ⟨rfl, -⟩ : event = event' ∧ next = .text rest := by simpa [h] using hread
    refine htakes.isValue fun c hc => ⟨not_isGap_of_mem_pending input c hc, ?_⟩
    obtain ⟨text, htext⟩ := List.head?_eq_some_iff.mp hc
    simpa [isExhausted, htext, isEnd, isBreak] using hexhausted

/-- The values that an input is drained of are values. -/
theorem Drains.isValue {input final : Input} {events : List InputEvent}
    (h : Drains input events final) : ∀ event ∈ events, IsValue event := by
  induction h with
  | done => exact List.forall_mem_nil _
  | value hread _ ih => exact List.forall_mem_cons.mpr ⟨isValue_of_read hread, ih⟩

/-! ## Lines of values -/

/-- Words one after another, with a gap between any two. -/
inductive Spaced : List (List Char) → List Char → Prop where
  | none : Spaced [] []
  | single (word : List Char) : Spaced [word] word
  | cons (word : List Char) {gap next line : List Char} {words : List (List Char)}
      (nonempty : gap ≠ []) (skipped : ∀ c ∈ gap, isGap c = true)
      (later : Spaced (next :: words) line) :
      Spaced (word :: next :: words) (word ++ (gap ++ line))

/-- Words with single spaces between them are spaced. -/
theorem spaced_intercalate (words : List (List Char)) :
    Spaced words ([' '].intercalate words) := by
  induction words with
  | nil => exact .none
  | cons word words ih =>
    cases words with
    | nil =>
      rw [List.intercalate_singleton]
      exact .single word
    | cons next words =>
      rw [List.intercalate_cons_cons, List.append_assoc]
      exact .cons word (List.cons_ne_nil _ _) (List.forall_mem_singleton.mpr rfl) ih

/-- Values with gaps between them are read one by one, from behind any gap. -/
theorem exists_drains_of_spaced {events : List InputEvent} (h : ∀ event ∈ events, IsValue event)
    {line : List Char} (hline : Spaced (events.map (·.text.toList)) line) {gap : List Char}
    (hgap : ∀ c ∈ gap, isGap c = true) : ∃ final, Drains (.text (gap ++ line)) events final := by
  -- What is left behind a value begins with the gap behind it, hence the gap before the line.
  induction events generalizing line gap with
  | nil =>
    cases hline with
    | none =>
      have hpending : (Input.text (gap ++ [])).pending = [] := by
        rw [pending, Input.rest, List.dropWhile_append_of_pos hgap, List.dropWhile_nil]
      have hexhausted : (Input.text (gap ++ [])).isExhausted = true := by
        rw [isExhausted, hpending]
        rfl
      exact ⟨_, .done (by rw [read, if_pos hexhausted])⟩
  | cons event events ih =>
    obtain ⟨hevent, hevents⟩ := List.forall_mem_cons.mp h
    cases events with
    -- The last value has nothing behind it, which is apart as well.
    | nil =>
      cases hline with
      | single =>
        obtain ⟨final, hfinal⟩ := ih hevents .none (List.forall_mem_nil _)
        have hnothing : Apart [] := fun c hc => by cases hc
        have hread := read_of_isValue hevent hgap hnothing
        rw [List.append_nil] at hread
        exact ⟨final, .value hread hfinal⟩
    | cons next events =>
      cases hline with
      | cons _ nonempty skipped later =>
        -- The value is followed by a gap, from behind which reading goes on.
        obtain ⟨final, hfinal⟩ := ih hevents later skipped
        exact ⟨final, .value (read_of_isValue hevent hgap (apart_append nonempty skipped _)) hfinal⟩

/-- Reading an input comes to its end, and whatever values it has found, they are read again, and
    no others, from their texts with single spaces between them.  Numerals with any gaps between
    them are read one by one. -/
theorem rereading_is_stable :
    (∀ input : Input, (∃ events final, Drains input events final) ∧
      ∀ events final, Drains input events final →
        ∃ again, Drains (ofText (" ".intercalate (events.map (·.text)))) events again) ∧
    ∀ (numerals : List Numeral) (line : String), (∀ numeral ∈ numerals, numeral.IsDecimal) →
      Spaced (numerals.map Numeral.chars) line.toList →
      ∃ final, Drains (ofText line) (numerals.map ofNumeral) final := by
  refine ⟨fun input => ⟨?_, fun events final hdrains => ?_⟩, fun numerals line hform hline => ?_⟩
  · obtain ⟨events, final, hdrains, -⟩ := exists_drains input
    exact ⟨events, final, hdrains⟩
  · -- The values that have been found are written with single spaces and read again.
    have hspaced := spaced_intercalate (events.map (·.text.toList))
    have htext : (" ".intercalate (events.map (·.text))).toList =
        [' '].intercalate (events.map (·.text.toList)) := by
      rw [String.toList_intercalate, List.map_map]
      rfl
    rw [← htext] at hspaced
    exact exists_drains_of_spaced hdrains.isValue hspaced (List.forall_mem_nil _)
  · -- Numerals are values, and their texts are their characters.
    have hvalues : ∀ event ∈ numerals.map ofNumeral, IsValue event := by
      intro event hevent
      obtain ⟨numeral, hnumeral, rfl⟩ := List.mem_map.mp hevent
      exact .number (hform numeral hnumeral)
    have htexts : (numerals.map ofNumeral).map (·.text.toList) =
        numerals.map Numeral.chars := by
      rw [List.map_map]
      exact List.map_congr_left fun _ _ => String.toList_ofList
    rw [← htexts] at hline
    exact exists_drains_of_spaced hvalues hline (List.forall_mem_nil _)

/-- From `+-5 4.` a plus, minus five, four and a point are read, and from `+ -5 4 .` the same.
    Three numerals are read from a line with a tab and several spaces between them. -/
theorem rereading_is_stable_signs :
    (∃ final, Drains (ofText "+-5 4.") [⟨"+", 43⟩, ⟨"-5", -5⟩, ⟨"4", 4⟩, ⟨".", 46⟩] final) ∧
    (∃ final, Drains (ofText "+ -5 4 .") [⟨"+", 43⟩, ⟨"-5", -5⟩, ⟨"4", 4⟩, ⟨".", 46⟩] final) ∧
    ∃ final, Drains (ofText "12\t -3.25   +7") [⟨"12", 12⟩, ⟨"-3.25", -3.25⟩, ⟨"+7", 7⟩] final := by
  have hplus : (ofText "+-5 4.").read = (some ⟨"+", 43⟩, .text "-5 4.".toList) := by
    decide +kernel
  have hfive : (Input.text "-5 4.".toList).read = (some ⟨"-5", -5⟩, .text " 4.".toList) := by
    decide +kernel
  have hfour : (Input.text " 4.".toList).read = (some ⟨"4", 4⟩, .text ".".toList) := by
    decide +kernel
  have hpoint : (Input.text ".".toList).read = (some ⟨".", 46⟩, .text []) := by decide +kernel
  have hend : (Input.text []).read = (none, .text []) := by decide +kernel
  have hsigns : Drains (ofText "+-5 4.") [⟨"+", 43⟩, ⟨"-5", -5⟩, ⟨"4", 4⟩, ⟨".", 46⟩] (.text []) :=
    .value hplus (.value hfive (.value hfour (.value hpoint (.done hend))))
  refine ⟨⟨_, hsigns⟩, (rereading_is_stable.1 (ofText "+-5 4.")).2 _ _ hsigns, ?_⟩
  have hevents : [⟨none, ['1', '2'], []⟩, ⟨some '-', ['3'], ['2', '5']⟩, ⟨some '+', ['7'], []⟩].map
      ofNumeral = [⟨"12", 12⟩, ⟨"-3.25", -3.25⟩, ⟨"+7", 7⟩] := by decide +kernel
  rw [← hevents]
  refine rereading_is_stable.2 _ "12\t -3.25   +7" ?_ ?_
  · intro numeral hnumeral
    simp only [List.mem_cons, List.not_mem_nil, or_false] at hnumeral
    obtain rfl | rfl | rfl := hnumeral <;> constructor <;> simp
  · have hfirst : ∀ c ∈ ['\t', ' '], isGap c = true := by simp [isGap]
    have hsecond : ∀ c ∈ [' ', ' ', ' '], isGap c = true := by simp [isGap]
    exact .cons ['1', '2'] (List.cons_ne_nil _ _) hfirst
      (.cons ['-', '3', '.', '2', '5'] (List.cons_ne_nil _ _) hsecond (.single ['+', '7']))

end Input

end Verse
