import Verse.Proofs.Input
import Verse.Proofs.Text.Utf8

/-!
# Where a line comes from

Of an input only the line up to its first break matters, and it does not matter whether that line
has been known beforehand or is fetched from a stream of bytes.  The line is fetched from the
bytes up to the first line feed, and if these are no text, nothing can be read.

* `nextEvent_append`      a value is read off its line, whatever comes after that
* `SameLine.answers`      inputs with the same line answer alike
* `decodeLine?_of_feed`   the line of a stream
-/

namespace Verse

/-! ## What comes after a line -/

/-- A text that can come after a line: none, or one that begins with a break. -/
def AfterLine (tail : List Char) : Prop :=
  ∀ c ∈ tail.head?, Input.isBreak c = true

section

variable {tail : List Char} (htail : AfterLine tail)
include htail

/-- What comes after a line has nothing of what no break has. -/
theorem span_afterLine {p : Char → Bool} (hp : ∀ c, Input.isBreak c = true → p c = false) :
    tail.takeWhile p = [] ∧ tail.dropWhile p = tail :=
  Numeral.span_of_head? fun c hc => hp c (htail c hc)

/-- What is taken of a line is not taken further. -/
theorem takeWhile_append_afterLine {p : Char → Bool}
    (hp : ∀ c, Input.isBreak c = true → p c = false) (text : List Char) :
    (text ++ tail).takeWhile p = text.takeWhile p := by
  rw [List.takeWhile_append, (span_afterLine htail hp).1, List.append_nil]
  split
  case isTrue hlength => exact ((List.takeWhile_prefix p).eq_of_length hlength).symm
  case isFalse => rfl

/-- What is dropped of a line leaves all that comes after it. -/
theorem dropWhile_append_afterLine {p : Char → Bool}
    (hp : ∀ c, Input.isBreak c = true → p c = false) (text : List Char) :
    (text ++ tail).dropWhile p = text.dropWhile p ++ tail := by
  rw [List.dropWhile_append, (span_afterLine htail hp).2]
  split
  case isTrue hempty => rw [List.isEmpty_iff.mp hempty, List.nil_append]
  case isFalse => rfl

end

namespace Numeral

variable {text tail : List Char}

/-- A sign is looked for at the start of a text, so what is behind it does not matter. -/
theorem sign?_append (h : text ≠ []) (tail : List Char) : sign? (text ++ tail) = sign? text := by
  obtain ⟨c, rest, rfl⟩ := List.exists_cons_of_ne_nil h
  rw [List.cons_append]
  unfold sign?
  split <;> split <;> simp_all

/-- No fraction is read on past a line. -/
theorem fractionOf_append (htail : AfterLine tail) (text : List Char) :
    fractionOf (text ++ tail) = fractionOf text := by
  cases text with
  | nil =>
    refine fractionOf_of_head? fun c hc => ?_
    -- A break is no decimal point.
    rintro rfl
    exact absurd (htail '.' hc) (by decide)
  | cons c rest =>
    rw [List.cons_append]
    by_cases hpoint : c = '.'
    · subst hpoint
      exact takeWhile_append_afterLine htail (fun _ => Input.not_isDigit_of_isBreak) rest
    · unfold fractionOf
      split <;> split <;> simp_all

/-- A numeral is read off its line. -/
theorem read?_append (htail : AfterLine tail) (h : text ≠ []) :
    read? (text ++ tail) = read? text := by
  have hlength : (sign? text).toList.length ≤ text.length := by
    have htext := congrArg List.length (sign?_spec text).1
    rw [List.length_append] at htext
    omega
  have hdigit : ∀ c, Input.isBreak c = true → c.isDigit = false :=
    fun _ => Input.not_isDigit_of_isBreak
  rw [read?, read?, sign?_append h, List.drop_append_of_le_length hlength]
  simp only [takeWhile_append_afterLine htail hdigit, dropWhile_append_afterLine htail hdigit,
    fractionOf_append htail]

end Numeral

namespace Input

/-- So is a value, and what comes after the line is left behind it. -/
theorem nextEvent_append {text tail : List Char} (htail : AfterLine tail) (h : text ≠ []) :
    nextEvent (text ++ tail) =
      (nextEvent text).map fun (event, rest) => (event, rest ++ tail) := by
  obtain ⟨c, rest, rfl⟩ := List.exists_cons_of_ne_nil h
  have hread := Numeral.read?_append htail h
  rw [List.cons_append] at hread ⊢
  rw [nextEvent, nextEvent, hread]
  cases hnumeral : Numeral.read? (c :: rest) with
  | none => rfl
  | some numeral =>
    obtain ⟨-, after, htext⟩ := Numeral.isDecimal_of_read? hnumeral
    have hlength : numeral.chars.length ≤ (c :: rest).length := by
      rw [htext, List.length_append]
      omega
    dsimp only [Option.map_some]
    rw [← List.cons_append, List.drop_append_of_le_length hlength]

/-- A break is no gap. -/
theorem not_isGap_of_isBreak {c : Char} (h : isBreak c = true) : isGap c = false := by
  simp only [isBreak, Bool.or_eq_true, beq_iff_eq] at h
  obtain rfl | rfl := h <;> decide

/-- The line of a text does not depend on what comes after it. -/
theorem lineOf_append_afterLine {tail : List Char} (htail : AfterLine tail) (text : List Char) :
    lineOf (text ++ tail) = lineOf text :=
  takeWhile_append_afterLine htail (fun c hc => by simp [hc]) text

/-- A text is its line and what comes after that. -/
theorem exists_afterLine (text : List Char) :
    ∃ tail, AfterLine tail ∧ text = lineOf text ++ tail := by
  refine ⟨text.dropWhile (!isBreak ·), fun c hc => ?_, (List.takeWhile_append_dropWhile).symm⟩
  have hnot := List.head?_dropWhile_not (!isBreak ·) text
  simpa [Option.mem_def.mp hc] using hnot

/-- A text in which there are characters of a line only is a line. -/
theorem lineOf_of_subset {text line : List Char} (h : ∀ c ∈ text, c ∈ lineOf line) :
    lineOf text = text :=
  List.takeWhile_eq_self_iff.mpr fun c hc =>
    List.mem_takeWhile_imp (p := fun c => !isBreak c) (h c hc)

/-- A text is at its end just if its line is. -/
theorem isEnd_lineOf (text : List Char) : isEnd (lineOf text) = isEnd text := by
  cases text with
  | nil => rfl
  | cons c rest =>
    by_cases hc : isBreak c = true
    · rw [lineOf_cons_of_isBreak hc]
      exact hc.symm
    · rw [lineOf, List.takeWhile_cons_of_pos (by simpa using hc)]
      rfl

/-- The line of what is pending is what is pending of the line. -/
theorem lineOf_pending (input : Input) :
    lineOf input.pending = (lineOf input.rest).dropWhile isGap := by
  obtain ⟨tail, htail, hrest⟩ := exists_afterLine input.rest
  have hpending : input.pending = (lineOf input.rest).dropWhile isGap ++ tail := by
    rw [pending, ← dropWhile_append_afterLine htail (fun _ => not_isGap_of_isBreak), ← hrest]
  rw [hpending, lineOf_append_afterLine htail]
  exact lineOf_of_subset fun c hc => (List.dropWhile_sublist _).mem hc

/-- A value is read off the line. -/
theorem read_of_not_isExhausted {input : Input} (h : input.isExhausted = false) :
    ∃ event rest tail, nextEvent (lineOf input.pending) = some (event, rest) ∧ AfterLine tail ∧
      input.read = (some event, .text (rest ++ tail)) := by
  obtain ⟨tail, htail, hpending⟩ := exists_afterLine input.pending
  have hne : lineOf input.pending ≠ [] := by
    intro hnil
    rw [isExhausted, ← isEnd_lineOf, hnil] at h
    cases h
  obtain ⟨event, rest, hnext, -⟩ := exists_takes hne
  refine ⟨event, rest, tail, hnext, htail, ?_⟩
  have happend := nextEvent_append htail hne
  rw [← hpending, hnext, Option.map_some] at happend
  rw [read, h, if_neg (by decide), happend]

/-! ## Inputs with the same line -/

/-- Two inputs that differ at most in what comes after their lines, and in whether these have been
    fetched. -/
structure SameLine (input input' : Input) : Prop where
  line : lineOf input'.rest = lineOf input.rest
  isGarbled : input'.isGarbled = input.isGarbled

namespace SameLine

variable {input input' : Input} (h : SameLine input input')
include h

/-- It does not matter which of the two inputs is the first. -/
theorem symm : SameLine input' input := ⟨h.line.symm, h.isGarbled.symm⟩

/-- What is pending of the two lines is the same. -/
theorem pending : lineOf input'.pending = lineOf input.pending := by
  rw [lineOf_pending, lineOf_pending, h.line]

/-- They are exhausted together. -/
theorem isExhausted : input'.isExhausted = input.isExhausted := by
  rw [Input.isExhausted, Input.isExhausted, ← isEnd_lineOf, h.pending, isEnd_lineOf]

/-- Skipping the gap before the next value leaves them with the same line. -/
theorem advance : SameLine input.advance input'.advance := ⟨h.pending, rfl⟩

/-- They give the same value, and are left with the same line. -/
theorem read : input'.read.1 = input.read.1 ∧ SameLine input.read.2 input'.read.2 := by
  cases hexhausted : input.isExhausted with
  | true =>
    rw [Input.read, Input.read, h.isExhausted, hexhausted, if_pos rfl, if_pos rfl]
    exact ⟨rfl, h.advance⟩
  | false =>
    -- Both values are read off the one line, and the rest of it is left to both.
    obtain ⟨event, rest, tail, hnext, htail, hread⟩ := read_of_not_isExhausted hexhausted
    obtain ⟨event', rest', tail', hnext', htail', hread'⟩ :=
      read_of_not_isExhausted (h.isExhausted.trans hexhausted)
    rw [h.pending, hnext] at hnext'
    cases hnext'
    rw [hread, hread']
    refine ⟨rfl, ?_, rfl⟩
    show lineOf (rest ++ tail') = lineOf (rest ++ tail)
    rw [lineOf_append_afterLine htail, lineOf_append_afterLine htail']

/-- They answer a call alike, and are left with the same line. -/
theorem call (call : Call) :
    (input'.call call).1 = (input.call call).1 ∧
      SameLine (input.call call).2 (input'.call call).2 := by
  cases call with
  | read => exact ⟨congrArg Answer.read h.read.1, h.read.2⟩
  | isExhausted => exact ⟨congrArg Answer.isExhausted h.isExhausted, h.advance⟩

/-- Inputs with the same line answer alike. -/
theorem answers (calls : List Call) : input'.answers calls = input.answers calls := by
  induction calls generalizing input input' with
  | nil => rfl
  | cons call calls ih =>
    obtain ⟨hanswer, hnext⟩ := h.call call
    rw [Input.answers, Input.answers, hanswer, ih hnext]

end SameLine

/-! ## The line of a stream -/

/-- The bytes of a stream up to its first line feed, which belongs to them. -/
def throughFeed (bytes : List UInt8) : List UInt8 :=
  firstLine bytes ++ (bytes.dropWhile (· != 10)).take 1

/-- The first line of a stream has a line feed if the stream has one. -/
theorem throughFeed_cases (bytes : List UInt8) :
    (10 ∉ bytes ∧ throughFeed bytes = firstLine bytes) ∨
      (10 ∈ bytes ∧ throughFeed bytes = firstLine bytes ++ [10]) := by
  rw [throughFeed]
  cases hdrop : bytes.dropWhile (· != 10) with
  | nil =>
    -- There is no line feed, so the line goes on to the end.
    refine .inl ⟨fun hmem => ?_, List.append_nil _⟩
    exact absurd (List.dropWhile_eq_nil_iff.mp hdrop 10 hmem) (by decide)
  | cons byte rest =>
    have hnot := List.head?_dropWhile_not (· != 10) bytes
    have hbyte : byte = 10 := by simpa [hdrop] using hnot
    refine .inr ⟨(List.dropWhile_sublist (· != 10)).mem ?_, ?_⟩
    · rw [hdrop, hbyte]
      exact List.mem_cons_self
    · rw [hbyte]
      rfl

/-- The first line has no line feed in it. -/
theorem takeWhile_throughFeed (bytes : List UInt8) :
    (throughFeed bytes).takeWhile (· != 10) = firstLine bytes := by
  have hline : ∀ byte ∈ firstLine bytes, (byte != 10) = true :=
    fun byte hbyte => List.mem_takeWhile_imp (p := (· != 10)) hbyte
  obtain ⟨-, h⟩ | ⟨-, h⟩ := throughFeed_cases bytes
  · rw [h, List.takeWhile_eq_self_iff.mpr hline]
  · rw [h, List.takeWhile_append_of_pos hline]
    exact List.append_nil _

/-- The line of a stream, once its first bytes are known to be a text. -/
theorem decodeLine?_of_feed {bytes : List UInt8} {line : String}
    (h : String.fromUTF8? (ByteArray.mk (throughFeed bytes).toArray) = some line) :
    decodeLine? bytes = some (String.ofList (line.toList.takeWhile (· != '\n'))) := by
  rw [fromUTF8?_eq_some_iff] at h
  rw [decodeLine?, fromUTF8?_eq_some_iff, String.toList_ofList, ← takeWhile_utf8Bytes, ← h,
    takeWhile_throughFeed]

/-- With or without its line feed, a line is a text or is none. -/
theorem decodeLine?_eq_none {bytes : List UInt8}
    (h : String.fromUTF8? (ByteArray.mk (throughFeed bytes).toArray) = none) :
    decodeLine? bytes = none := by
  by_contra hsome
  obtain ⟨line, hline⟩ := Option.ne_none_iff_exists'.mp hsome
  rw [decodeLine?, fromUTF8?_eq_some_iff] at hline
  obtain ⟨text, htext⟩ : ∃ text : String, throughFeed bytes = utf8Bytes text.toList := by
    obtain ⟨-, hfeed⟩ | ⟨-, hfeed⟩ := throughFeed_cases bytes
    · exact ⟨line, by rw [hfeed, hline]⟩
    · refine ⟨line ++ "\n", ?_⟩
      rw [hfeed, hline, String.toList_append, utf8Bytes_append]
      rfl
  rw [fromUTF8?_eq_some_iff.mpr htext] at h
  cases h

/-- A text that is the first line of a stream, or begins with it and its line feed. -/
inductive Continues (bytes : List UInt8) (line : String) : String → Prop
  | line : Continues bytes line line
  /-- The line has its line feed already. -/
  | more (hfeed : 10 ∈ bytes) (rest : String) : Continues bytes line (line ++ rest)
  | fed (rest : String) : Continues bytes line (line ++ "\n" ++ rest)

/-- What comes after a line may be followed by what comes after one. -/
theorem afterLine_append {tail tail' : List Char} (h : AfterLine tail)
    (h' : tail = [] → AfterLine tail') : AfterLine (tail ++ tail') := by
  cases tail with
  | nil => exact h' rfl
  | cons c rest => exact h

/-- From its line feed on, a text comes after a line. -/
theorem afterLine_dropWhile_feed (chars : List Char) : AfterLine (chars.dropWhile (· != '\n')) := by
  intro c hc
  have hnot := List.head?_dropWhile_not (· != '\n') chars
  rw [Option.mem_def.mp hc] at hnot
  have hfeed : c = '\n' := by simpa using hnot
  rw [hfeed]
  rfl

/-- A line feed among the bytes is one of the text. -/
theorem dropWhile_feed_ne_nil {bytes : List UInt8} {line : String}
    (h : String.fromUTF8? (ByteArray.mk (throughFeed bytes).toArray) = some line)
    (hfeed : 10 ∈ bytes) : line.toList.dropWhile (· != '\n') ≠ [] := by
  intro hnil
  have hdrop := dropWhile_utf8Bytes line.toList
  rw [hnil, ← fromUTF8?_eq_some_iff.mp h] at hdrop
  have hmem : 10 ∈ throughFeed bytes := by
    obtain ⟨hnot, -⟩ | ⟨-, hthrough⟩ := throughFeed_cases bytes
    · exact absurd hfeed hnot
    · rw [hthrough]
      exact List.mem_append_right _ (List.mem_singleton_self _)
  exact absurd (List.dropWhile_eq_nil_iff.mp hdrop 10 hmem) (by decide)

/-- What a text has beyond the line of a stream cannot be reached. -/
theorem sameLine_of_decodeLine? {bytes : List UInt8} {line text : String} {tail : List Char}
    (h : decodeLine? bytes = some line) (htail : AfterLine tail)
    (htext : text.toList = line.toList ++ tail) : SameLine (ofText text) (.unread bytes) := by
  constructor
  · show lineOf ((decodeLine? bytes).getD "").toList = lineOf text.toList
    rw [h, htext, lineOf_append_afterLine htail, Option.getD_some]
  · simp only [isGarbled, h, ofText, Option.isNone_some]

/-- A stream has the line of every text that begins with what is fetched from it. -/
theorem sameLine_of_continues {bytes : List UInt8} {line text : String}
    (h : String.fromUTF8? (ByteArray.mk (throughFeed bytes).toArray) = some line)
    (htext : Continues bytes line text) : SameLine (ofText text) (.unread bytes) := by
  have hline := afterLine_dropWhile_feed line.toList
  -- The stream is cut at its line feed, and the text may go on behind it.
  have hsplit := (List.takeWhile_append_dropWhile (p := (· != '\n')) (l := line.toList)).symm
  obtain ⟨tail, htail, happend⟩ : ∃ tail, AfterLine tail ∧
      text.toList = line.toList.takeWhile (· != '\n') ++ tail := by
    cases htext with
    | line => exact ⟨_, hline, hsplit⟩
    | more hfeed rest =>
      refine ⟨_ ++ rest.toList, afterLine_append hline fun hnil => ?_, ?_⟩
      · exact absurd hnil (dropWhile_feed_ne_nil h hfeed)
      · rw [String.toList_append, ← List.append_assoc, ← hsplit]
    | fed rest =>
      refine ⟨_ ++ '\n' :: rest.toList, afterLine_append hline fun _ c hc => ?_, ?_⟩
      · obtain rfl := Option.some.inj hc
        rfl
      · rw [← List.append_assoc, ← hsplit, String.toList_append, String.toList_append,
          List.append_assoc]
        rfl
  exact sameLine_of_decodeLine? (decodeLine?_of_feed h) htail (by rwa [String.toList_ofList])

/-- A stream that holds a text, perhaps with more behind a line feed, has the line of the text. -/
theorem sameLine_of_holds {bytes : List UInt8} {text : String}
    (h : bytes = utf8Bytes text.toList ∨ ∃ more, bytes = utf8Bytes text.toList ++ 10 :: more) :
    SameLine (ofText text) (.unread bytes) := by
  have hfirst : firstLine bytes = utf8Bytes (text.toList.takeWhile (· != '\n')) := by
    rw [← takeWhile_utf8Bytes]
    obtain rfl | ⟨more, rfl⟩ := h
    · rfl
    · rw [firstLine, List.takeWhile_append]
      split
      case isTrue hlength =>
        rw [List.takeWhile_cons_of_neg (by decide), List.append_nil]
        exact ((List.takeWhile_prefix _).eq_of_length hlength).symm
      case isFalse => rfl
  have hdecode : decodeLine? bytes =
      some (String.ofList (text.toList.takeWhile (· != '\n'))) := by
    rw [decodeLine?, fromUTF8?_eq_some_iff, String.toList_ofList, hfirst]
  refine sameLine_of_decodeLine? hdecode (afterLine_dropWhile_feed text.toList) ?_
  rw [String.toList_ofList, List.takeWhile_append_dropWhile]

/-- Nothing can be read from a line that is no text. -/
theorem isExhausted_of_garbled {bytes : List UInt8} (h : decodeLine? bytes = none) :
    (Input.unread bytes).isExhausted = true := by
  have hrest : (Input.unread bytes).rest = [] := by
    show ((decodeLine? bytes).getD "").toList = []
    rw [h]
    rfl
  rw [isExhausted, pending, hrest]
  rfl

end Input

end Verse
