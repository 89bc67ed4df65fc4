import Verse.Text.Split

/-!
# Lines and fields that are put together

Words that are joined by blanks are the fields of their line, and lines that each end with a
line feed are the lines of their text.

* `split_eq_splitOnP`        cutting a text is `List.splitOnP`
* `unbroken_of_mem_fields`  fields are words without white space
* `fields_intercalate`       the fields of a line of words
* `lines_flatMap`            the lines of a text of lines
-/

namespace Verse.Text

/-- Cutting is what the library does. -/
theorem split_eq_splitOnP (separates : Char → Bool) (text : List Char) :
    split separates text = text.splitOnP separates := by
  induction text with
  | nil => rfl
  | cons c rest ih =>
    rw [split, List.splitOnP_cons_eq_if_modifyHead, ih]
    obtain ⟨piece, pieces, h⟩ := List.exists_cons_of_ne_nil (List.splitOnP_ne_nil separates rest)
    simp only [h, List.modifyHead_cons]

/-- No piece of a text has a separator in it. -/
theorem not_separates_of_mem_split {separates : Char → Bool} {text piece : List Char}
    (h : piece ∈ split separates text) : ∀ c ∈ piece, separates c = false := by
  induction text generalizing piece with
  | nil =>
    obtain rfl := List.mem_singleton.mp h
    simp
  | cons c rest ih =>
    obtain ⟨first, pieces, hsplit⟩ : ∃ first pieces, split separates rest = first :: pieces := by
      rw [split_eq_splitOnP]
      exact List.exists_cons_of_ne_nil (List.splitOnP_ne_nil _ _)
    rw [split] at h
    by_cases hc : separates c = true
    · rw [if_pos hc, List.mem_cons] at h
      obtain rfl | hmem := h
      · simp
      · exact ih hmem
    · -- The character is put in front of the first piece.
      simp only [if_neg hc, hsplit, List.mem_cons] at h
      obtain rfl | hmem := h
      · have hfirst := ih (hsplit ▸ List.mem_cons_self)
        simpa [hc] using hfirst
      · exact ih (hsplit ▸ List.mem_cons_of_mem _ hmem)

/-! ## Fields -/

/-- A word that is not empty and has no white space in it. -/
structure Unbroken (word : List Char) : Prop where
  ne_nil : word ≠ []
  not_isWhite : ∀ c ∈ word, isWhite c = false

/-- Unbroken words are recognised by their characters. -/
theorem unbroken_iff {word : List Char} :
    (!word.isEmpty && word.all (!isWhite ·)) = true ↔ Unbroken word := by
  simp only [Bool.and_eq_true, Bool.not_eq_true', List.isEmpty_eq_false_iff, List.all_eq_true]
  exact ⟨fun h => ⟨h.1, h.2⟩, fun h => ⟨h.ne_nil, h.not_isWhite⟩⟩

instance (word : List Char) : Decidable (Unbroken word) :=
  decidable_of_iff _ unbroken_iff

/-- A field is not empty, and no white space was left in it. -/
theorem unbroken_of_mem_fields {line field : List Char} (h : field ∈ fields line) :
    Unbroken field := by
  obtain ⟨hmem, hne⟩ := List.mem_filter.mp h
  exact ⟨by simpa using hne, not_separates_of_mem_split hmem⟩

/-- Words that are joined by blanks are the fields of their line. -/
theorem fields_intercalate {words : List (List Char)} (h : ∀ word ∈ words, Unbroken word) :
    fields ([' '].intercalate words) = words := by
  induction words with
  | nil => rfl
  | cons word words ih =>
    obtain ⟨hword, hwords⟩ := List.forall_mem_cons.mp h
    cases words with
    | nil =>
      rw [List.intercalate_singleton, fields, split_eq_splitOnP,
        List.splitOnP_eq_singleton hword.not_isWhite]
      simp [hword.ne_nil]
    | cons next words =>
      -- The first word ends at the blank behind it.
      rw [List.intercalate_cons_cons, List.append_assoc, List.singleton_append, fields,
        split_eq_splitOnP,
        List.splitOnP_append_cons_of_forall_mem hword.not_isWhite ' ' (by decide),
        ← split_eq_splitOnP, List.filter_cons_of_pos (by simp [hword.ne_nil]), ← fields,
        ih hwords]

/-! ## Lines -/

/-- A line: a text without a line feed, and without a carriage return before the one that ends
    it. -/
structure IsLine (line : List Char) : Prop where
  not_newline : ∀ c ∈ line, (c == '\n') = false
  not_return : line.getLast? ≠ some '\r'

/-- Words that are joined by blanks are a line. -/
theorem isLine_intercalate {words : List (List Char)} (h : ∀ word ∈ words, Unbroken word) :
    IsLine ([' '].intercalate words) := by
  have hchars : ∀ c ∈ [' '].intercalate words, c = ' ' ∨ isWhite c = false := by
    induction words with
    | nil => simp
    | cons word words ih =>
      obtain ⟨hword, hwords⟩ := List.forall_mem_cons.mp h
      cases words with
      | nil => simpa using fun c hc => Or.inr (hword.not_isWhite c hc)
      | cons next words =>
        intro c hc
        rw [List.intercalate_cons_cons, List.append_assoc, List.mem_append] at hc
        obtain hc | hc := hc
        · exact .inr (hword.not_isWhite c hc)
        · obtain rfl | hc := List.mem_cons.mp hc
          · exact .inl rfl
          · exact ih hwords c hc
  -- Line feeds and carriage returns are white space other than the blank.
  refine ⟨fun c hc => ?_, fun hlast => ?_⟩
  · obtain rfl | hwhite := hchars c hc
    · rfl
    · rw [beq_eq_false_iff_ne]
      rintro rfl
      exact absurd hwhite (by decide)
  · exact absurd (hchars '\r' (List.mem_of_getLast? hlast)) (by decide)

/-- Lines that each end with a line feed are the lines of their text. -/
theorem lines_flatMap {text : List (List Char)} (h : ∀ line ∈ text, IsLine line) :
    lines (text.flatMap (· ++ ['\n'])) = text := by
  induction text with
  | nil => rfl
  | cons line text ih =>
    obtain ⟨hline, htext⟩ := List.forall_mem_cons.mp h
    have hne := List.splitOnP_ne_nil (· == '\n') (text.flatMap (· ++ ['\n']))
    rw [List.flatMap_cons, List.append_assoc, List.singleton_append, lines, split_eq_splitOnP,
      List.splitOnP_append_cons_of_forall_mem hline.not_newline '\n' rfl, endLines,
      dropReturn, if_neg hline.not_return, ← split_eq_splitOnP, ← lines, ih htext]
    exact hne

end Verse.Text
