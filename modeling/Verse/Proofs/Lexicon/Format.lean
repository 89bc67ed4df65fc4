import Verse.Lexicon.Format
import Verse.Proofs.Except
import Verse.Proofs.Numeric.Plain
import Verse.Proofs.Text.Case
import Verse.Proofs.Text.Split

/-!
# Dictionary text and back

A lexicon whose words can be written is what the dictionary that holds it reads as, and every
lexicon that was ever read is such a lexicon.

* `Lexicon.IsWritable`            words and base words that a dictionary can hold
* `Entry.ofFields_columns`        an entry is read back from its columns
* `Lexicon.readLines_written`     lines of a dictionary are read back one after the other
* `Lexicon.isWritable_of_ofText`  reading a dictionary gives words that can be written
* `Lexicon.dictionary_text_round_trips`  the round trip, and what keeps it
-/

namespace Verse

open Text (Unbroken IsLine)

/-! ## Words that can be written -/

/-- A word as dictionaries have it: not empty, without white space and in lower case. -/
structure IsBare (word : String) : Prop where
  unbroken : Unbroken word.toList
  lower_eq : Text.lower word = word

/-- A word is bare once it is in lower case. -/
theorem isBare_lower {word : String} (h : Unbroken word.toList) : IsBare (Text.lower word) := by
  refine ⟨⟨?_, Text.not_isWhite_lower h.not_isWhite⟩, Text.lower_lower word⟩
  have hne : word ≠ "" := fun heq => h.ne_nil (by simp [heq])
  simpa using Text.lower_ne_empty hne

/-- A base word that is not mistaken for a mark. -/
def BaseWord.IsWritable (base : BaseWord) : Prop :=
  ∀ word, base = .word word → IsBare word ∧ word ≠ "_" ∧ word ≠ "."

/-- A lexicon with words and base words that a dictionary can hold. -/
def Lexicon.IsWritable (lexicon : Lexicon) : Prop :=
  ∀ word entry, lexicon.get? word = some entry → IsBare word ∧ entry.base.IsWritable

/-! ## Columns -/

namespace BaseWord

/-- A base word is read back from its written form. -/
theorem ofField_text {base : BaseWord} (h : base.IsWritable) : ofField base.text = base := by
  cases base with
  | missing => rfl
  | itself => rfl
  | word word =>
    obtain ⟨hbare, hmissing, hitself⟩ := h word rfl
    rw [text, ofField, if_neg hmissing, if_neg hitself, hbare.lower_eq]

/-- A base word that was read from a field can be written again. -/
theorem isWritable_ofField {field : String} (h : Unbroken field.toList) :
    (ofField field).IsWritable := by
  intro word hword
  rw [ofField] at hword
  split at hword
  case isTrue => cases hword
  case isFalse hmissing =>
    split at hword
    case isTrue => cases hword
    case isFalse hitself =>
      cases hword
      -- Not even in lower case is the field mistaken for a mark.
      refine ⟨isBare_lower h, fun heq => hmissing ?_, fun heq => hitself ?_⟩
      · exact Text.eq_singleton_of_lower (by decide : Text.isMark '_' = true) heq
      · exact Text.eq_singleton_of_lower (by decide : Text.isMark '.' = true) heq

/-- The written form of a base word is one field. -/
theorem unbroken_text {base : BaseWord} (h : base.IsWritable) : Unbroken base.text.toList := by
  cases base with
  | missing => decide
  | itself => decide
  | word word => exact (h word rfl).1.unbroken

end BaseWord

namespace Entry

/-- The written form of what is known of an element. -/
def elementColumn (element : Option Element) : String :=
  (element.map Element.name).getD "_"

/-- The written forms of syllable counts. -/
def syllableColumns (syllables : List UInt32) : List String :=
  if syllables.isEmpty then ["_"] else syllables.map fun count => toString count.toNat

/-- The columns after a word. -/
def columns (entry : Entry) : List String :=
  entry.base.text :: elementColumn entry.element :: syllableColumns entry.syllables

/-- The syllable counts take up at least one column. -/
theorem syllableColumns_ne_nil (syllables : List UInt32) : syllableColumns syllables ≠ [] := by
  cases syllables <;> simp [syllableColumns]

/-- An entry is written as its columns with blanks between them. -/
theorem text_eq (entry : Entry) : entry.text = " ".intercalate entry.columns := by
  have hsyllables : " ".intercalate (syllableColumns entry.syllables) =
      if entry.syllables.isEmpty then "_"
      else " ".intercalate (entry.syllables.map fun count => toString count.toNat) := by
    rw [syllableColumns]
    split <;> simp
  rw [columns, String.intercalate_cons_cons,
    String.intercalate_cons_of_ne_nil (syllableColumns_ne_nil _), hsyllables, text, elementColumn]
  simp only [String.append_assoc]

/-- An element is read back from its written form. -/
theorem readElement_elementColumn (element : Option Element) :
    readElement (elementColumn element) = .ok element := by
  cases element with
  | none => rfl
  | some element =>
    have hne : element.name ≠ "_" := by cases element <;> decide
    have hname : Element.ofName? (Text.lower element.name) = some element := by
      cases element <;> decide +kernel
    rw [elementColumn, Option.map_some, Option.getD_some, readElement, if_neg hne, hname]

/-- The written form of an element is one field. -/
theorem unbroken_elementColumn (element : Option Element) :
    Unbroken (elementColumn element).toList := by
  cases element with
  | none => decide
  | some element => cases element <;> decide

/-- Digits are not white space. -/
theorem isWhite_of_isDigit {c : Char} (h : c.isDigit = true) : Text.isWhite c = false := by
  have hcode : 48 ≤ c.toNat ∧ c.toNat ≤ 57 := Char.isDigit_iff_toNat.mp h
  simp only [Text.isWhite, Bool.or_eq_false_iff, Bool.and_eq_false_iff, decide_eq_false_iff_not,
    beq_eq_false_iff_ne]
  omega

/-- A number has at least one digit. -/
theorem toString_ne_nil (n : Nat) : (toString n).toList ≠ [] := by
  rw [Numeric.toList_toString]
  exact Nat.toDigits_ne_nil

/-- Digits without a sign are read as they stand. -/
theorem unsigned?_of_isDigit {digits : List Char} (hne : digits ≠ [])
    (hdigits : ∀ c ∈ digits, c.isDigit = true) {bound : Nat}
    (hbound : Numeric.digitsValue 0 digits < bound) :
    Numeric.unsigned? bound digits = some (Numeric.digitsValue 0 digits) := by
  -- A plus sign at the start would be dropped, but it is no digit.
  have hplus : digits.head? ≠ some '+' := by
    intro hhead
    exact absurd (hdigits '+' (List.mem_of_head? hhead)) (by decide)
  rw [Numeric.unsigned?, if_neg hplus, if_neg (by simpa [hne] using hdigits), if_pos hbound]

/-- A number is read back from its digits. -/
theorem unsigned?_toString {bound n : Nat} (h : n < bound) :
    Numeric.unsigned? bound (toString n).toList = some n := by
  have hvalue := Numeric.digitsValue_toString n
  rw [unsigned?_of_isDigit (toString_ne_nil n) (Numeric.isDigit_toString n) (by rwa [hvalue]),
    hvalue]

/-- Each syllable count is one field, also the mark for none. -/
theorem unbroken_syllableColumns (syllables : List UInt32) :
    ∀ column ∈ syllableColumns syllables, Unbroken column.toList := by
  intro column hcolumn
  rw [syllableColumns] at hcolumn
  split at hcolumn
  · obtain rfl := List.mem_singleton.mp hcolumn
    decide
  · obtain ⟨count, -, rfl⟩ := List.mem_map.mp hcolumn
    exact ⟨toString_ne_nil _, fun c hc => isWhite_of_isDigit (Numeric.isDigit_toString _ c hc)⟩

/-- Syllable counts are read back from their written forms. -/
theorem readSyllables_syllableColumns (syllables : List UInt32) :
    readSyllables (syllableColumns syllables) = .ok syllables := by
  have hcounts : ∀ counts : List UInt32,
      readSyllables (counts.map fun count => toString count.toNat) = .ok counts := by
    intro counts
    induction counts with
    | nil => rfl
    | cons count counts ih =>
      -- A count is not mistaken for the mark, which is no digit.
      have hne : toString count.toNat ≠ "_" := by
        intro heq
        have hdigit := Numeric.isDigit_toString count.toNat '_' (by simp [heq])
        exact absurd hdigit (by decide)
      rw [List.map_cons, readSyllables, if_neg hne, unsigned?_toString count.toNat_lt]
      simp only [ih, Except.map, UInt32.ofNat_toNat]
  cases syllables with
  | nil => rfl
  | cons count counts => exact hcounts (count :: counts)

/-- An entry is read back from its columns. -/
theorem ofFields_columns {entry : Entry} (h : entry.base.IsWritable) :
    ofFields entry.columns = .ok entry := by
  rw [columns, ofFields, readElement_elementColumn, readSyllables_syllableColumns,
    BaseWord.ofField_text h]
  rfl

/-- All columns are fields. -/
theorem unbroken_columns {entry : Entry} (h : entry.base.IsWritable) :
    ∀ column ∈ entry.columns, Unbroken column.toList := by
  simpa [columns] using
    ⟨BaseWord.unbroken_text h, unbroken_elementColumn _, unbroken_syllableColumns _⟩

/-- A base word that was read can be written. -/
theorem isWritable_of_ofFields {fields : List String} {entry : Entry}
    (hfields : ∀ field ∈ fields, Unbroken field.toList) (h : ofFields fields = .ok entry) :
    entry.base.IsWritable := by
  cases fields with
  | nil => cases h
  | cons base fields =>
    cases fields with
    | nil => cases h
    | cons element syllables =>
      obtain ⟨element, -, h⟩ := bind_eq_ok_iff.mp h
      obtain ⟨syllables, -, h⟩ := bind_eq_ok_iff.mp h
      cases h
      exact BaseWord.isWritable_ofField (hfields base List.mem_cons_self)

end Entry

/-! ## Dictionaries -/

namespace Lexicon

/-- The line of a word and its entry, without the line feed. -/
def written (item : String × Entry) : List Char :=
  [' '].intercalate ((item.1 :: item.2.columns).map String.toList)

/-- The text of a dictionary is made of its lines, each with a line feed behind it. -/
theorem toList_toText (lexicon : Lexicon) :
    lexicon.toText.toList = (lexicon.entries.toList.map written).flatMap (· ++ ['\n']) := by
  rw [toText, String.toList_join, toLines, List.flatMap_map, List.flatMap_map]
  congr 1
  funext item
  have hcolumns : item.2.columns ≠ [] := List.cons_ne_nil _ _
  have hline : written item = (item.1 ++ " " ++ item.2.text).toList := by
    rw [Entry.text_eq, ← String.intercalate_cons_of_ne_nil hcolumns, String.toList_intercalate]
    rfl
  rw [hline, ← String.toList_singleton, ← String.toList_append]
  rfl

section

variable {item : String × Entry} (hword : IsBare item.1) (hbase : item.2.base.IsWritable)
include hword hbase

/-- The word and the columns of its entry are fields. -/
theorem unbroken_of_mem_columns :
    ∀ word ∈ (item.1 :: item.2.columns).map String.toList, Unbroken word := by
  simpa using ⟨hword.unbroken, Entry.unbroken_columns hbase⟩

/-- The fields of a line are the word and the columns that it was written from. -/
theorem fields_written :
    (Text.fields (written item)).map String.ofList = item.1 :: item.2.columns := by
  rw [written, Text.fields_intercalate (unbroken_of_mem_columns hword hbase), List.map_map]
  simp

/-- What is written for a word is a line. -/
theorem isLine_written : IsLine (written item) :=
  Text.isLine_intercalate (unbroken_of_mem_columns hword hbase)

end

/-- The lines of a dictionary are read back one after the other. -/
theorem readLines_written {items : List (String × Entry)}
    (h : ∀ item ∈ items, IsBare item.1 ∧ item.2.base.IsWritable) (lexicon : Lexicon)
    (number : Nat) :
    lexicon.readLines number (items.map written) =
      .ok (items.foldl (fun lexicon item => lexicon.put item.1 item.2) lexicon) := by
  induction items generalizing lexicon number with
  | nil => rfl
  | cons item items ih =>
    obtain ⟨⟨hword, hbase⟩, hitems⟩ := List.forall_mem_cons.mp h
    simp only [List.map_cons, readLines, fields_written hword hbase, Entry.ofFields_columns hbase,
      hword.lower_eq, ih hitems, List.foldl_cons]

/-- A lexicon is put together again from its words and their entries. -/
theorem foldl_put_toList (lexicon : Lexicon) :
    lexicon.entries.toList.foldl (fun lexicon item => lexicon.put item.1 item.2) empty =
      lexicon := by
  -- Putting one by one is what the map calls inserting many.
  have hentries : ∀ (items : List (String × Entry)) (start : Lexicon),
      items.foldl (fun lexicon item => lexicon.put item.1 item.2) start =
        ⟨start.entries.insertMany items⟩ := by
    intro items start
    rw [Std.ExtTreeMap.insertMany_list_eq_foldl]
    exact List.foldl_hom Lexicon.mk fun _ _ => rfl
  rw [hentries]
  -- No word is listed twice, so each keeps the entry that is listed with it.
  refine ext_get? fun word => ?_
  cases hget : lexicon.get? word with
  | some entry =>
    have hmem : (word, entry) ∈ lexicon.entries.toList :=
      Std.ExtTreeMap.mem_toList_iff_getElem?_eq_some.mpr hget
    exact Std.ExtTreeMap.getElem?_insertMany_list_of_mem Std.ReflCmp.compare_self
      Std.ExtTreeMap.distinct_keys_toList hmem
  | none =>
    have hword : (lexicon.entries.toList.map Prod.fst).contains word = false := by
      rw [Std.ExtTreeMap.map_fst_toList_eq_keys, Std.ExtTreeMap.contains_keys]
      simpa [get?, ← Std.ExtTreeMap.contains_iff_mem] using hget
    exact (Std.ExtTreeMap.getElem?_insertMany_list_of_contains_eq_false hword).trans
      (get?_empty word)

/-- A writable lexicon is read back from the dictionary that holds it. -/
theorem ofText_toText {lexicon : Lexicon} (h : lexicon.IsWritable) :
    ofText lexicon.toText = .ok lexicon := by
  have hitems : ∀ item ∈ lexicon.entries.toList, IsBare item.1 ∧ item.2.base.IsWritable :=
    fun item hitem => h item.1 item.2 (Std.ExtTreeMap.mem_toList_iff_getElem?_eq_some.mp hitem)
  have hlines : ∀ line ∈ lexicon.entries.toList.map written, IsLine line := by
    intro line hline
    obtain ⟨item, hitem, rfl⟩ := List.mem_map.mp hline
    exact isLine_written (hitems item hitem).1 (hitems item hitem).2
  rw [ofText, toList_toText, Text.lines_flatMap hlines, readLines_written hitems,
    foldl_put_toList]

/-! ## What keeps a lexicon writable -/

/-- Without words, there is none that cannot be written. -/
theorem isWritable_empty : empty.IsWritable := by
  intro word entry h
  simp at h

/-- Putting in a bare word keeps a lexicon writable. -/
theorem IsWritable.put {lexicon : Lexicon} (h : lexicon.IsWritable) {word : String}
    (hword : IsBare word) {entry : Entry} (hbase : entry.base.IsWritable) :
    (lexicon.put word entry).IsWritable := by
  intro other found hfound
  rw [get?_put] at hfound
  split at hfound
  case isTrue hsame =>
    obtain rfl := Option.some.inj hfound
    exact ⟨hsame ▸ hword, hbase⟩
  case isFalse => exact h other found hfound

/-- So does storing an entry that is offered, as the word is put into lower case. -/
theorem IsWritable.insert? {lexicon next : Lexicon} (h : lexicon.IsWritable) {word : String}
    (hword : Unbroken word.toList) {entry : Entry} (hbase : entry.base.IsWritable)
    (hnext : lexicon.insert? word entry = some next) : next.IsWritable := by
  simp only [Lexicon.insert?] at hnext
  split at hnext
  case isTrue => cases hnext
  case isFalse =>
    obtain rfl := Option.some.inj hnext
    exact h.put (isBare_lower hword) hbase

/-- Forgetting a word takes only an entry away. -/
theorem IsWritable.erase {lexicon : Lexicon} (h : lexicon.IsWritable) (word : String) :
    (lexicon.erase word).IsWritable := by
  intro other found hfound
  rw [get?_erase] at hfound
  split at hfound
  case isTrue => cases hfound
  case isFalse => exact h other found hfound

/-- Lines of a dictionary put in words of fields. -/
theorem IsWritable.readLines {lexicon next : Lexicon} (h : lexicon.IsWritable) {number : Nat}
    {lines : List (List Char)} (hnext : lexicon.readLines number lines = .ok next) :
    next.IsWritable := by
  induction lines generalizing lexicon number with
  | nil =>
    obtain rfl := Except.ok.inj hnext
    exact h
  | cons line lines ih =>
    -- The fields of a line are unbroken, and the first of them is the word.
    have hfields : ∀ field ∈ (Text.fields line).map String.ofList, Unbroken field.toList := by
      intro field hfield
      obtain ⟨chars, hchars, rfl⟩ := List.mem_map.mp hfield
      rw [String.toList_ofList]
      exact Text.unbroken_of_mem_fields hchars
    rw [Lexicon.readLines] at hnext
    -- A blank line adds nothing, and a faulty one ends the reading.
    split at hnext
    case h_1 => exact ih h hnext
    case h_2 word fields hline =>
      rw [hline] at hfields
      obtain ⟨hword, hfields⟩ := List.forall_mem_cons.mp hfields
      split at hnext
      case h_1 => cases hnext
      case h_2 entry hentry =>
        exact ih (h.put (isBare_lower hword) (Entry.isWritable_of_ofFields hfields hentry)) hnext

/-- What has been read from a dictionary can be written. -/
theorem isWritable_of_ofText {text : String} {lexicon : Lexicon} (h : ofText text = .ok lexicon) :
    lexicon.IsWritable :=
  isWritable_empty.readLines h

/-- A lexicon that the dictionary holding it reads as, and is written as once more. -/
def RoundTrips (lexicon : Lexicon) : Prop :=
  ∃ again, ofText lexicon.toText = .ok again ∧ again = lexicon ∧ again.toText = lexicon.toText

/-- Whatever is read from a dictionary, and every lexicon with words that a dictionary can hold,
    is read back from the dictionary that holds it.  Storing such words and forgetting any leaves a
    lexicon of that kind. -/
theorem dictionary_text_round_trips :
    (∀ text lexicon, ofText text = .ok lexicon → lexicon.IsWritable ∧ lexicon.RoundTrips) ∧
    (∀ lexicon : Lexicon, lexicon.IsWritable → lexicon.RoundTrips) ∧
    (∀ (lexicon : Lexicon) word, lexicon.IsWritable → (lexicon.erase word).IsWritable) ∧
    ∀ (lexicon next : Lexicon) word entry, lexicon.IsWritable → Unbroken word.toList →
      entry.base.IsWritable → lexicon.insert? word entry = some next → next.IsWritable := by
  have roundTrips : ∀ lexicon : Lexicon, lexicon.IsWritable → lexicon.RoundTrips :=
    fun lexicon h => ⟨lexicon, ofText_toText h, rfl, rfl⟩
  refine ⟨fun text lexicon h => ?_, roundTrips, fun lexicon word h => h.erase word, ?_⟩
  · exact ⟨isWritable_of_ofText h, roundTrips lexicon (isWritable_of_ofText h)⟩
  · intro lexicon next word entry h hword hbase hnext
    exact h.insert? hword hbase hnext

/-- A dictionary with capitals, marks in every column, two lines for one word and a blank line. -/
theorem dictionary_text_round_trips_rivers :
    ∃ lexicon,
      (ofText "Rivers\tRIVER WATER 2 _ +1\r\n\n_ _ _\nriver . none\nrivers River _ 2" = .ok lexicon ∧
        lexicon.toText = "_ _ _ _\nriver . none _\nrivers river _ 2\n") ∧
      lexicon.IsWritable ∧ lexicon.RoundTrips ∧ (lexicon.erase "RIVER").RoundTrips ∧
      ∃ next, lexicon.insert? "Rio" ⟨.word "river", some .water, [1, 2]⟩ = some next ∧
        next.RoundTrips := by
  obtain ⟨hread, hroundTrips, herase, hinsert⟩ := dictionary_text_round_trips
  refine (exists_of_toOption_map (by decide +kernel)).imp fun lexicon h => ⟨h, ?_⟩
  obtain ⟨hlexicon, hround⟩ := hread _ lexicon h.1
  have hriver : (BaseWord.word "river").IsWritable := by
    rintro word ⟨⟩
    exact ⟨⟨by decide, by decide +kernel⟩, by decide, by decide⟩
  have hnext : lexicon.insert? "Rio" ⟨.word "river", some .water, [1, 2]⟩ =
      some (lexicon.put "rio" ⟨.word "river", some .water, [1, 2]⟩) := by
    have hlower : Text.lower "Rio" = "rio" := by decide +kernel
    simp only [Lexicon.insert?, hlower]
    rw [if_neg (by decide +kernel)]
  refine ⟨hlexicon, hround, hroundTrips _ (herase lexicon "RIVER" hlexicon), _, hnext, ?_⟩
  exact hroundTrips _ (hinsert _ _ _ _ hlexicon (by decide) hriver hnext)

end Lexicon

end Verse
