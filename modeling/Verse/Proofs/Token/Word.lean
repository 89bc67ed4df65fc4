import Verse.Proofs.Number.Words
import Verse.Token.Chain

/-!
# Reading word by word

A word of letters that is followed by no other word character is one lexeme, and one piece of
the text.  So is a hyphen.

* `Lexeme.scan_word`           a word is cut off where it ends
* `Piece.ofChars_word`         the piece of a word, and then the rest of the text
* `Piece.ofLexeme_of_spells`   the piece of a number word
-/

namespace Verse

open Number (Spells isPlain)

/-! ## Lexemes of plain words -/

namespace Lexeme

/-- Letters are among the characters of words. -/
theorem isWordChar_of_isAlpha {c : Char} (h : c.isAlpha = true) : isWordChar c = true := by
  simp [isWordChar, h]

/-- No letter is a blank. -/
theorem isBlank_of_isAlpha {c : Char} (h : c.isAlpha = true) : isBlank c = false := by
  cases hblank : isBlank c with
  | false => rfl
  | true =>
    simp only [isBlank, Bool.or_eq_true, beq_iff_eq] at hblank
    obtain (rfl | rfl) | rfl := hblank <;> exact absurd h (by decide)

/-- No letter is a digit. -/
theorem isDigit_of_isAlpha {c : Char} (h : c.isAlpha = true) : c.isDigit = false := by
  cases hdigit : c.isDigit with
  | false => rfl
  | true =>
    simp only [Char.isAlpha, Char.isUpper, Char.isLower, Char.isDigit, Bool.or_eq_true,
      Bool.and_eq_true, decide_eq_true_eq, ge_iff_le, UInt32.le_iff_toNat_le] at h hdigit
    -- Capitals, small letters and digits are three ranges that have nothing in common.
    change (65 ≤ c.val.toNat ∧ c.val.toNat ≤ 90) ∨ (97 ≤ c.val.toNat ∧ c.val.toNat ≤ 122) at h
    change 48 ≤ c.val.toNat ∧ c.val.toNat ≤ 57 at hdigit
    omega

/-- Where a word ends: at the end of the text or before a character that no word has. -/
def EndsWord (rest : List Char) : Prop :=
  ∀ c ∈ rest.head?, isWordChar c = false

section

variable {rest : List Char}

/-- There is nothing to take of a word where it has ended. -/
theorem takeWhile_of_endsWord (h : EndsWord rest) : rest.takeWhile isWordChar = [] := by
  cases rest with
  | nil => rfl
  | cons c rest => rw [List.takeWhile_cons, if_neg (by simp [h c rfl])]

/-- And nothing to drop. -/
theorem dropWhile_of_endsWord (h : EndsWord rest) : rest.dropWhile isWordChar = rest := by
  cases rest with
  | nil => rfl
  | cons c rest => rw [List.dropWhile_cons, if_neg (by simp [h c rfl])]

/-- A word is cut off where it ends. -/
theorem scan_word {word : List Char} (hword : isPlain word = true) (hrest : EndsWord rest)
    (line column : Nat) :
    scan line column (word ++ rest) =
      ⟨⟨line, column⟩, word⟩ :: scan line (column + word.length) rest := by
  obtain ⟨hne, hall⟩ := Number.isPlain_iff.mp hword
  cases word with
  | nil => exact absurd rfl hne
  | cons c cs =>
    have hc := hall c List.mem_cons_self
    have hcs : ∀ c' ∈ cs, isWordChar c' = true :=
      fun c' hc' => isWordChar_of_isAlpha (hall c' (List.mem_cons_of_mem c hc'))
    -- The first letter decides that a word begins here.
    have hnewline : c ≠ '\n' := by
      rintro rfl
      exact absurd hc (by decide)
    rw [List.cons_append, scan, if_neg hnewline, isBlank_of_isAlpha hc, isWordChar_of_isAlpha hc,
      List.takeWhile_append_of_pos hcs, List.dropWhile_append_of_pos hcs,
      takeWhile_of_endsWord hrest, dropWhile_of_endsWord hrest, List.append_nil]
    rfl

/-- A hyphen is a lexeme of its own. -/
theorem scan_hyphen (line column : Nat) (rest : List Char) :
    scan line column ('-' :: rest) = ⟨⟨line, column⟩, ['-']⟩ :: scan line (column + 1) rest := by
  rw [scan]
  rfl

end

/-- A plain word is not a single character of another kind. -/
theorem text_ne_singleton {lexeme : Lexeme} (h : isPlain lexeme.text = true) {c : Char}
    (hc : c.isAlpha = false) : lexeme.text ≠ [c] := by
  intro heq
  have hall := (Number.isPlain_iff.mp h).2
  rw [heq] at hall
  exact absurd (hall c List.mem_cons_self) (by rw [hc]; exact Bool.false_ne_true)

/-- A plain word is no comma. -/
theorem isComma_of_isPlain {lexeme : Lexeme} (h : isPlain lexeme.text = true) :
    lexeme.isComma = false :=
  beq_eq_false_iff_ne.mpr (text_ne_singleton h (by decide))

end Lexeme

/-! ## Pieces -/

namespace Piece

/-- A plain word has no digit. -/
theorem isDigit_of_isPlain {lexeme : Lexeme} (h : isPlain lexeme.text = true) :
    isDigit lexeme = false := by
  have hall := (Number.isPlain_iff.mp h).2
  simpa [isDigit] using fun c hc => Lexeme.isDigit_of_isAlpha (hall c hc)

/-- A plain word is what its spelling says. -/
theorem ofLexeme_of_isPlain (lexicon : Lexicon) {lexeme : Lexeme}
    (h : isPlain lexeme.text = true) :
    ofLexeme lexicon lexeme = .part
      { place := lexeme.place, text := lexeme.spelling
        word := .ofSpelling lexicon lexeme.spelling } := by
  obtain ⟨hne, hall⟩ := Number.isPlain_iff.mp h
  -- Plain words are not empty, so they have a character that is of a word.
  obtain ⟨c, hc⟩ := List.exists_mem_of_ne_nil _ hne
  have hchar : lexeme.text.any Lexeme.isWordChar = true :=
    List.any_eq_true.mpr ⟨c, hc, Lexeme.isWordChar_of_isAlpha (hall c hc)⟩
  rw [ofLexeme, if_neg (Lexeme.text_ne_singleton h (by decide))]
  simp only [hchar]
  rfl

/-- The words and hyphens of a text that starts outside comments. -/
def ofChars (lexicon : Lexicon) (line column : Nat) (text : List Char) : List Piece :=
  ofLexemes lexicon (Lexeme.uncomment false (Lexeme.scan line column text))

/-- Any lexeme but a comma or a digit is a piece. -/
theorem ofLexemes_uncomment_cons (lexicon : Lexicon) {lexeme : Lexeme} (rest : List Lexeme)
    (hcomma : lexeme.isComma = false) (hdigit : isDigit lexeme = false) :
    ofLexemes lexicon (Lexeme.uncomment false (lexeme :: rest)) =
      ofLexeme lexicon lexeme :: ofLexemes lexicon (Lexeme.uncomment false rest) := by
  simp [Lexeme.uncomment, hcomma, ofLexemes, hdigit]

/-- A hyphen is a piece, and the rest of the text is read behind it. -/
theorem ofChars_hyphen (lexicon : Lexicon) (line column : Nat) (rest : List Char) :
    ofChars lexicon line column ('-' :: rest) =
      .hyphen ⟨line, column⟩ :: ofChars lexicon line (column + 1) rest := by
  rw [ofChars, Lexeme.scan_hyphen, ofLexemes_uncomment_cons lexicon _ rfl rfl]
  rfl

/-- A plain word is a piece, and the rest of the text is read behind it. -/
theorem ofChars_word (lexicon : Lexicon) {word rest : List Char} (hword : isPlain word = true)
    (hrest : Lexeme.EndsWord rest) (line column : Nat) :
    ofChars lexicon line column (word ++ rest) =
      ofLexeme lexicon ⟨⟨line, column⟩, word⟩ ::
        ofChars lexicon line (column + word.length) rest := by
  rw [ofChars, Lexeme.scan_word hword hrest, ofLexemes_uncomment_cons lexicon _
    (Lexeme.isComma_of_isPlain hword) (isDigit_of_isPlain hword)]
  rfl

/-- A number word is a part of its own. -/
theorem ofLexeme_of_spells (lexicon : Lexicon) (place : Place) {word : String} {value : Nat}
    (h : Spells word value) :
    ofLexeme lexicon ⟨place, word.toList⟩ =
      .part { place, text := word.toLower, word := .number value } := by
  have hspelling : (Lexeme.mk place word.toList).spelling = word.toLower := by
    rw [Lexeme.spelling, String.toLower, ← String.toList_map, String.ofList_toList]
  rw [ofLexeme_of_isPlain lexicon h.isPlain, hspelling, Word.ofSpelling,
    h.command_ofWord?_toLower, h.ofWord?_toLower]

end Piece

end Verse
