import Verse.Proofs.Number.English
import Verse.Proofs.Numeric.Whole
import Verse.Proofs.Token.Chain
import Verse.Proofs.Token.Word

/-!
# Spelled numbers as tokens

The words of a number, joined by hyphens, are one chain of number words, and so one token.  It
is the number that was spelled, whichever spellings and letter cases were chosen.

* `chains_of_terms`                 a chain of number words makes the token of their number
* `joined_ofChars`                  hyphens join number words to one chain
* `spelled_numbers_are_read_back`   the token of a spelled number
-/

namespace Verse

open Number (Spells)

/-! ## One chain -/

section

variable {first : Part} {parts : List Part} {term : Number.Term} {terms : List Number.Term}

/-- A chain up to the end of a text makes one token, and so does a number word alone. -/
theorem chains_of_terms {pieces : List Piece} (hfirst : first.Makes term)
    (h : List.Forall₂ Part.Makes parts terms)
    (hjoined : joined pieces = (parts, none, [])) :
    chains (.part first :: pieces) =
      [(Number.combine .saturating term terms).map Token.ofTerm] := by
  rw [chains, hjoined]
  cases h with
  | nil =>
    have hcombine : Number.combine .saturating term [] = .ok term := rfl
    simp [hcombine, hfirst.token, chains, Except.map]
  | cons hpart hparts =>
    have hchain := chainToken_of_terms hfirst (.cons hpart hparts)
    simp [hchain, chains]

end

/-- Hyphens are the same in lower case. -/
theorem toLower_intercalate (words : List String) :
    ("-".intercalate words).toLower = "-".intercalate (words.map String.toLower) := by
  apply String.toList_injective
  cases words with
  | nil => simp [String.toLower]
  | cons word words =>
    rw [List.map_cons, toList_intercalate_cons, String.toLower, String.toList_map,
      toList_intercalate_cons]
    simp [String.toLower, List.map_flatMap, List.flatMap_map]

/-- A hyphen ends the word before it. -/
theorem Lexeme.endsWord_flatMap (words : List String) :
    Lexeme.EndsWord (words.flatMap fun word => '-' :: word.toList) := by
  cases words with
  | nil => intro c hc; cases hc
  | cons word words =>
    intro c hc
    obtain rfl : '-' = c := Option.some.inj hc
    decide

/-- Hyphens join number words to one chain. -/
theorem joined_ofChars (lexicon : Lexicon) {words : List String} {values : List Nat}
    (h : List.Forall₂ Spells words values) (line column : Nat) :
    ∃ parts terms, joined (Piece.ofChars lexicon line column
        (words.flatMap fun word => '-' :: word.toList)) = (parts, none, []) ∧
      List.Forall₂ Part.Makes parts terms ∧
      List.Forall₂ Number.Term.Reads terms values ∧
      terms.map Number.Term.text = words.map String.toLower := by
  -- Each hyphen and the word after it are one part more, further to the right.
  induction h generalizing column with
  | nil =>
    refine ⟨[], [], ?_, .nil, .nil, rfl⟩
    rw [List.flatMap_nil, Piece.ofChars, Lexeme.scan]
    simp [Lexeme.uncomment, Piece.ofLexemes, joined]
  | @cons word value words values hword _ ih =>
    obtain ⟨parts, terms, hjoined, hparts, hterms, htexts⟩ :=
      ih (column + 1 + word.toList.length)
    let part : Part :=
      { place := ⟨line, column + 1⟩, text := word.toLower, word := .number value }
    refine ⟨part :: parts, .ofValue part.place part.text value :: terms, ?_,
      .cons rfl hparts, .cons ⟨rfl, rfl⟩ hterms, ?_⟩
    · rw [List.flatMap_cons, List.cons_append, Piece.ofChars_hyphen,
        Piece.ofChars_word lexicon hword.isPlain (Lexeme.endsWord_flatMap words),
        Piece.ofLexeme_of_spells lexicon _ hword, joined, hjoined]
    · rw [List.map_cons, List.map_cons, htexts]
      rfl

/-- The words of a number, in whatever spellings and letter cases they are, are read as one
    token: the number itself, without loss, with the text in lower case, the element of all
    numbers, and the place of the first word. -/
theorem spelled_numbers_are_read_back (lexicon : Lexicon) {n : Nat} (hpos : 0 < n)
    (hlt : n < 10 ^ 12) {words : List String}
    (hwords : List.Forall₂ Spells words (Number.english n)) :
    ∃ token, Token.ofText lexicon ("-".intercalate words) = .ok [token] ∧
      token.kind = .number (Float.ofNat n) ∧ Numeric.IsWhole token.kind.value n ∧
      token.text = ("-".intercalate words).toLower ∧ token.kind.element = .earth ∧
      token.place = ⟨1, 1⟩ := by
  obtain ⟨word, words, rfl⟩ : ∃ word others, words = word :: others := by
    cases words with
    | nil => exact absurd (List.forall₂_nil_left_iff.mp hwords) (Number.english_ne_nil hpos hlt)
    | cons word others => exact ⟨word, others, rfl⟩
  -- The first word begins the chain, and each of the others follows a hyphen.
  obtain ⟨value, values, hword, hrest, hvalues⟩ := List.forall₂_cons_left_iff.mp hwords
  obtain ⟨parts, terms, hjoined, hparts, hterms, htexts⟩ :=
    joined_ofChars lexicon hrest 1 (1 + word.toList.length)
  let first : Part := { place := ⟨1, 1⟩, text := word.toLower, word := .number value }
  let term : Number.Term := .ofValue ⟨1, 1⟩ word.toLower value
  have hpieces : Piece.ofChars lexicon 1 1 ("-".intercalate (word :: words)).toList =
      .part first :: Piece.ofChars lexicon 1 (1 + word.toList.length)
        (words.flatMap fun word => '-' :: word.toList) := by
    rw [toList_intercalate_cons, Piece.ofChars_word lexicon hword.isPlain
      (Lexeme.endsWord_flatMap words), Piece.ofLexeme_of_spells lexicon _ hword]
  -- The words are those of the number, with the first one in front.
  have hall : List.Forall₂ Number.Term.Reads (term :: terms) (Number.english n) := by
    rw [hvalues]
    exact .cons ⟨rfl, rfl⟩ hterms
  obtain ⟨number, hcombine, hvalue⟩ := Number.exists_combine_english hpos hlt hall
  obtain ⟨htext, hplace⟩ := Number.combine_keeps hcombine
  have hfirst : first.Makes term := rfl
  refine ⟨Token.ofTerm number, ?_, ?_, ?_, ?_, rfl, hplace⟩
  · -- The text is one chain, and its token is the number that the words are read as.
    rw [Token.ofText, Lexeme.ofText]
    change gather (chains (Piece.ofChars lexicon 1 1 _)) = _
    rw [hpieces, chains_of_terms hfirst hparts hjoined, hcombine]
    rfl
  · rw [Token.ofTerm, hvalue]
  · rw [Token.ofTerm, hvalue]
    exact Numeric.isWhole_ofNat hpos (hlt.trans (by decide))
  · rw [toLower_intercalate, List.map_cons, ← htexts]
    exact htext

/-- Twelve digits with zeros among them, in mixed spellings and letter cases. -/
theorem spelled_numbers_are_read_back_mixed :
    let words := ["A", "Century", "Score", "billionth", "fifteen", "Million", "THRICE", "hundred",
      "forty", "Couple"]
    List.Forall₂ Spells words (Number.english 120015000342) ∧
      ∀ lexicon, ∃ token, Token.ofText lexicon ("-".intercalate words) = .ok [token] ∧
        token.kind = .number (Float.ofNat 120015000342) ∧
        Numeric.IsWhole token.kind.value 120015000342 ∧
        token.text = "a-century-score-billionth-fifteen-million-thrice-hundred-forty-couple" ∧
        token.kind.element = .earth ∧ token.place = ⟨1, 1⟩ := by
  intro words
  have hwords : List.Forall₂ Spells words (Number.english 120015000342) := by decide +kernel
  have htext : ("-".intercalate words).toLower =
      "a-century-score-billionth-fifteen-million-thrice-hundred-forty-couple" := by
    decide +kernel
  refine ⟨hwords, fun lexicon => ?_⟩
  rw [← htext]
  exact spelled_numbers_are_read_back lexicon (by decide) (by decide) hwords

end Verse
