import Verse.Proofs.Token.Joined
import Verse.Proofs.Token.Place
import Verse.Proofs.Token.Word

/-!
# Tokens and the text they are read from

Tokens are spelled with the characters of the text, all of them and in their order, but for
comments, blanks, line feeds and digits.  Each token stands where its first word does.

* `Lexeme.legible`           the characters that tokens are spelled with
* `flatMap_kept_scan`        lexemes outside comments have all of these characters
* `Piece.spells_of_mem`      the text has every word and hyphen at its place
* `tokens_spell_the_text`    the tokens of a text, in their order and at their places
-/

namespace Verse

namespace Lexeme

/-! ## Characters that are read -/

/-- A text without its comments and the commas around them.  `inside` says whether the text starts
    in a comment. -/
def uncommented (inside : Bool) : List Char → List Char
  | [] => []
  | c :: rest =>
    if c = ',' then uncommented (!inside) rest
    else if inside then uncommented inside rest
    else c :: uncommented inside rest

/-- Characters that no token is spelled with: line feeds, blanks and digits. -/
def isSkipped (c : Char) : Bool :=
  c == '\n' || isBlank c || c.isDigit

/-- The characters of a text that tokens are spelled with. -/
def legible (inside : Bool) (text : List Char) : List Char :=
  (uncommented inside text).filter (!isSkipped ·)

example : legible false "I, 1 (2\n3), see-a 4 moon!".toList = "Isee-amoon!".toList := by decide

/-- A comma begins a comment, or ends one. -/
theorem legible_comma (inside : Bool) (rest : List Char) :
    legible inside (',' :: rest) = legible (!inside) rest := by
  simp [legible, uncommented]

/-- What is skipped is skipped in comments and outside. -/
theorem legible_skipped (inside : Bool) {c : Char} (hcomma : c ≠ ',') (hc : isSkipped c = true)
    (rest : List Char) : legible inside (c :: rest) = legible inside rest := by
  cases inside <;> simp [legible, uncommented, hcomma, hc]

/-- A word is read as a whole, unless it is in a comment. -/
theorem legible_append (inside : Bool) {word : List Char} (hcomma : ∀ c ∈ word, c ≠ ',')
    (hword : ∀ c ∈ word, isSkipped c = false) (rest : List Char) :
    legible inside (word ++ rest) = (if inside then [] else word) ++ legible inside rest := by
  induction word with
  | nil => simp
  | cons c word ih =>
    obtain ⟨hc, hcomma⟩ := List.forall_mem_cons.mp hcomma
    obtain ⟨hskipped, hword⟩ := List.forall_mem_cons.mp hword
    have ih := ih hcomma hword
    rw [legible] at ih ⊢
    cases inside <;> simp_all [uncommented]

/-- Letters and apostrophes are no blanks. -/
theorem isBlank_of_isWordChar {c : Char} (h : isWordChar c = true) : isBlank c = false := by
  rw [isWordChar, Bool.or_eq_true] at h
  obtain h | h := h
  · exact isBlank_of_isAlpha h
  · rw [eq_of_beq h]
    rfl

/-- Nor are they digits. -/
theorem isDigit_of_isWordChar {c : Char} (h : isWordChar c = true) : c.isDigit = false := by
  rw [isWordChar, Bool.or_eq_true] at h
  obtain h | h := h
  · exact isDigit_of_isAlpha h
  · rw [eq_of_beq h]
    rfl

/-- So no character of a word is skipped. -/
theorem isSkipped_of_isWordChar {c : Char} (h : isWordChar c = true) : isSkipped c = false := by
  simp [isSkipped, ne_newline_of_isWordChar h, isBlank_of_isWordChar h, isDigit_of_isWordChar h]

/-- Nor is any of them a comma. -/
theorem ne_comma_of_isWordChar {c : Char} (h : isWordChar c = true) : c ≠ ',' := by
  rintro rfl
  exact absurd h (by decide)

end Lexeme

namespace Piece

/-! ## Lexemes that are kept -/

/-- The lexemes of a text that make pieces: those outside comments that are no digits. -/
def kept (inside : Bool) (lexemes : List Lexeme) : List Lexeme :=
  (Lexeme.uncomment inside lexemes).filter (!isDigit ·)

/-- A text is read from the lexemes that are kept of it. -/
theorem ofLexemes_ofText (lexicon : Lexicon) (text : String) :
    ofLexemes lexicon (Lexeme.ofText text) =
      (kept false (Lexeme.scan 1 1 text.toList)).map (ofLexeme lexicon) := rfl

/-- A comma is not kept, and decides what is kept behind it. -/
theorem kept_comma (inside : Bool) {lexeme : Lexeme} (h : lexeme.isComma = true)
    (rest : List Lexeme) : kept inside (lexeme :: rest) = kept (!inside) rest := by
  simp [kept, Lexeme.uncomment, h]

/-- A digit is not kept. -/
theorem kept_digit (inside : Bool) {lexeme : Lexeme} (hcomma : lexeme.isComma = false)
    (h : isDigit lexeme = true) (rest : List Lexeme) :
    kept inside (lexeme :: rest) = kept inside rest := by
  cases inside <;> simp [kept, Lexeme.uncomment, hcomma, h]

/-- A lexeme without commas and skipped characters is kept whole, unless it is in a comment. -/
theorem flatMap_kept_cons (inside : Bool) {lexeme : Lexeme}
    (hcomma : ∀ c ∈ lexeme.text, c ≠ ',')
    (hskipped : ∀ c ∈ lexeme.text, Lexeme.isSkipped c = false) (rest : List Lexeme) :
    (kept inside (lexeme :: rest)).flatMap (·.text) =
      (if inside then [] else lexeme.text) ++ (kept inside rest).flatMap (·.text) := by
  -- The first of its characters would be the comma, or the digit.
  have hnocomma : lexeme.isComma = false := by
    refine beq_eq_false_iff_ne.mpr fun h => ?_
    exact hcomma ',' (by rw [h]; exact List.mem_cons_self) rfl
  have hnodigit : isDigit lexeme = false := by
    refine List.any_eq_false.mpr fun c hc hdigit => ?_
    have hc := hskipped c hc
    simp [Lexeme.isSkipped, hdigit] at hc
  cases inside <;> simp [kept, Lexeme.uncomment, hnocomma, hnodigit]

/-- The lexemes that are kept have all characters of the text but those that are skipped. -/
theorem flatMap_kept_scan (inside : Bool) (line column : Nat) (text : List Char) :
    (kept inside (Lexeme.scan line column text)).flatMap (·.text) = Lexeme.legible inside text := by
  fun_induction Lexeme.scan line column text generalizing inside with
  | case1 => rfl
  | case2 line column rest ih => rw [ih, Lexeme.legible_skipped inside (by decide) rfl]
  | case3 line column c rest _ hblank ih =>
    have hcomma : c ≠ ',' := by
      rintro rfl
      exact absurd hblank (by decide)
    rw [ih, Lexeme.legible_skipped inside hcomma (by simp [Lexeme.isSkipped, hblank])]
  | case4 line column c rest _ _ hword =>
    rename_i word ih
    -- The characters of a word are kept together or lie in a comment together.
    have hwords := Lexeme.forall_isWordChar hword rest
    have hcommas := fun c' hc' => Lexeme.ne_comma_of_isWordChar (hwords c' hc')
    have hskipped := fun c' hc' => Lexeme.isSkipped_of_isWordChar (hwords c' hc')
    have htext : c :: rest = word ++ rest.dropWhile Lexeme.isWordChar := by
      simp [word, List.takeWhile_append_dropWhile]
    rw [flatMap_kept_cons inside hcommas hskipped, ih, htext,
      Lexeme.legible_append inside hcommas hskipped]
  | case5 line column c rest hnewline hblank _ ih =>
    by_cases hcomma : c = ','
    · rw [hcomma, kept_comma inside rfl, ih, Lexeme.legible_comma]
    by_cases hdigit : c.isDigit = true
    · rw [kept_digit inside (by simp [Lexeme.isComma, hcomma]) (by simp [isDigit, hdigit]), ih,
        Lexeme.legible_skipped inside hcomma (by simp [Lexeme.isSkipped, hdigit])]
    -- What is left of the characters is neither a comma nor skipped.
    · have hcommas : ∀ c' ∈ [c], c' ≠ ',' := by simpa using hcomma
      have hskipped : ∀ c' ∈ [c], Lexeme.isSkipped c' = false := by
        simp [Lexeme.isSkipped, hnewline, hblank, hdigit]
      rw [flatMap_kept_cons inside hcommas hskipped, ih]
      exact (Lexeme.legible_append inside hcommas hskipped rest).symm

/-- Nothing is kept that was not there. -/
theorem kept_sublist (inside : Bool) (lexemes : List Lexeme) :
    (kept inside lexemes).Sublist lexemes := by
  refine List.filter_sublist.trans ?_
  fun_induction Lexeme.uncomment inside lexemes with
  | case1 => exact .slnil
  | case2 _ _ _ _ ih => exact ih.cons _
  | case3 _ _ _ ih => exact ih.cons _
  | case4 _ _ _ _ _ ih => exact ih.cons_cons _

/-- The lexemes that are kept stand in the text at their places. -/
theorem laid_kept (text : List Char) : Lexeme.Laid [] text (kept false (Lexeme.scan 1 1 text)) :=
  (Lexeme.laid_scan rfl text).sublist (kept_sublist _ _)

/-! ## Pieces of a text -/

/-- The characters of a piece, in lower case. -/
def chars : Piece → List Char
  | .part p => p.text.toList
  | .hyphen _ => ['-']

/-- A piece stands where its lexeme does. -/
theorem place_ofLexeme (lexicon : Lexicon) (lexeme : Lexeme) :
    (ofLexeme lexicon lexeme).place = lexeme.place := by
  rw [ofLexeme]
  split <;> rfl

/-- A piece has the characters of its lexeme, in lower case. -/
theorem chars_ofLexeme (lexicon : Lexicon) (lexeme : Lexeme) :
    (ofLexeme lexicon lexeme).chars = lexeme.text.map Char.toLower := by
  rw [ofLexeme]
  split
  case isTrue h =>
    rw [h]
    rfl
  case isFalse => simp [chars, Lexeme.spelling]

section

variable (lexicon : Lexicon) (text : String)

/-- The text has every piece at its place. -/
theorem spells_of_mem {piece : Piece} (h : piece ∈ ofLexemes lexicon (Lexeme.ofText text)) :
    piece.place.Spells text.toList piece.chars := by
  rw [ofLexemes_ofText] at h
  obtain ⟨lexeme, hlexeme, rfl⟩ := List.mem_map.mp h
  rw [place_ofLexeme, chars_ofLexeme]
  exact (laid_kept text.toList).spells hlexeme

/-- Pieces stand in the order of the text. -/
theorem pairwise_place :
    (ofLexemes lexicon (Lexeme.ofText text)).Pairwise (·.place.Precedes ·.place) := by
  rw [ofLexemes_ofText, List.pairwise_map]
  simpa only [place_ofLexeme] using (laid_kept text.toList).pairwise

/-- Pieces are spelled with all characters that are read. -/
theorem flatMap_chars :
    (ofLexemes lexicon (Lexeme.ofText text)).flatMap chars =
      (Lexeme.legible false text.toList).map Char.toLower := by
  rw [ofLexemes_ofText, List.flatMap_map, ← flatMap_kept_scan false 1 1, List.map_flatMap]
  simp only [chars_ofLexeme]

/-- No word has a hyphen in it. -/
theorem ne_hyphen_of_mem {part : Part} (h : .part part ∈ ofLexemes lexicon (Lexeme.ofText text)) :
    ∀ c ∈ part.text.toList, c ≠ '-' := by
  rw [ofLexemes_ofText] at h
  obtain ⟨lexeme, hlexeme, hpart⟩ := List.mem_map.mp h
  have htext : part.text.toList = lexeme.text.map Char.toLower := by
    rw [← chars_ofLexeme lexicon, hpart]
    rfl
  have hhyphen : '-' ∉ lexeme.text := by
    intro hmem
    -- A lexeme with a hyphen would be a hyphen, and no word.
    obtain hword | ⟨c, hc⟩ := Lexeme.text_of_mem_scan ((kept_sublist _ _).subset hlexeme)
    · exact absurd (hword '-' hmem) (by decide)
    · rw [hc, List.mem_singleton] at hmem
      subst hmem
      rw [ofLexeme, if_pos hc] at hpart
      cases hpart
  rw [htext]
  rintro c hc rfl
  obtain ⟨c, hc, hlower⟩ := List.mem_map.mp hc
  -- Only a letter is changed, and into a letter.
  have hupper : ¬ c.isUpper = true := by
    intro hupper
    have halpha : c.toLower.isAlpha = true := by
      rw [Char.isAlpha_toLower_eq_isAlpha, Char.isAlpha, hupper]
      rfl
    rw [hlower] at halpha
    cases halpha
  rw [Char.toLower_eq_of_not_isUpper hupper] at hlower
  exact hhyphen (hlower ▸ hc)

end

end Piece

/-! ## Tokens of a text -/

namespace Chain

variable {chain : Chain} {token : Token}

/-- The token of a chain is spelled with the characters of its words and hyphens. -/
theorem Makes.toList_text (h : chain.Makes token) :
    token.text.toList = chain.pieces.flatMap Piece.chars := by
  rw [h.text, parts, List.map_cons, toList_intercalate_cons, pieces, List.flatMap_cons,
    Piece.linked, List.flatMap_assoc, List.map_map, List.flatMap_map]
  simp [Piece.chars]

/-- Up to its first hyphen, the token of a chain is the first word. -/
theorem Makes.takeWhile_text (h : chain.Makes token)
    (hfirst : ∀ c ∈ chain.first.text.toList, c ≠ '-') :
    token.text.toList.takeWhile (· != '-') = chain.first.text.toList := by
  -- The first word has no hyphen, and what follows it begins with one.
  rw [h.toList_text, pieces, List.flatMap_cons, Piece.chars,
    List.takeWhile_append_of_pos (by simpa using hfirst)]
  cases chain.links with
  | nil => simp
  | cons link links => simp [Piece.chars]

end Chain

section

variable {cs : List Chain} {tokens : List Token} (h : List.Forall₂ Chain.Makes cs tokens)

include h

/-- Tokens have the characters of their chains. -/
theorem flatMap_text_of_makes :
    tokens.flatMap (·.text.toList) = (cs.flatMap Chain.pieces).flatMap Piece.chars := by
  induction h with
  | nil => rfl
  | cons hchain _ ih =>
    rw [List.flatMap_cons, List.flatMap_cons, List.flatMap_append, hchain.toList_text, ih]

/-- Each token stands at the place of a piece, the next one at that of a later piece. -/
theorem map_place_sublist :
    (tokens.map Token.place).Sublist ((cs.flatMap Chain.pieces).map Piece.place) := by
  induction h with
  | nil => exact .slnil
  | @cons chain token cs tokens hchain _ ih =>
    rw [List.flatMap_cons, List.map_append, Chain.pieces, List.map_cons, List.map_cons,
      hchain.place, List.cons_append]
    exact (ih.trans (List.sublist_append_right _ _)).cons_cons _

/-- Each token is made by one of the chains. -/
theorem exists_chain_of_mem {token : Token} (htoken : token ∈ tokens) :
    ∃ chain ∈ cs, chain.Makes token := by
  induction h with
  | nil => cases htoken
  | cons hchain _ ih =>
    obtain rfl | htoken := List.mem_cons.mp htoken
    · exact ⟨_, List.mem_cons_self, hchain⟩
    · obtain ⟨chain, hmem, hmakes⟩ := ih htoken
      exact ⟨chain, List.mem_cons_of_mem _ hmem, hmakes⟩

end

/-- Tokens lose, invent and misplace nothing.  Together they are spelled with all characters of the
    text that are read; each stands behind the one before it; and the text has at the place of
    each the token's word, or its first word. -/
theorem tokens_spell_the_text {lexicon : Lexicon} {text : String} {tokens : List Token}
    (h : Token.ofText lexicon text = .ok tokens) :
    tokens.flatMap (·.text.toList) = (Lexeme.legible false text.toList).map Char.toLower ∧
      tokens.Pairwise (·.place.Precedes ·.place) ∧
      ∀ token ∈ tokens,
        token.place.Spells text.toList (token.text.toList.takeWhile (· != '-')) := by
  obtain ⟨cs, hpieces, hcs⟩ := ofText_eq_ok_iff.mp h
  have hmakes : List.Forall₂ Chain.Makes cs tokens := hcs.imp fun _ _ => Chain.makes_of_token
  -- A token takes the place of its chain's first word, which is one of the pieces of the text.
  refine ⟨?_, ?_, fun token htoken => ?_⟩
  · rw [flatMap_text_of_makes hmakes, ← hpieces, Piece.flatMap_chars]
  · have hplaces := Piece.pairwise_place lexicon text
    rw [hpieces, ← List.pairwise_map] at hplaces
    exact List.pairwise_map.mp (hplaces.sublist (map_place_sublist hmakes))
  · obtain ⟨chain, hchain, htoken⟩ := exists_chain_of_mem hmakes htoken
    have hfirst : .part chain.first ∈ Piece.ofLexemes lexicon (Lexeme.ofText text) := by
      rw [hpieces]
      exact List.mem_flatMap.mpr ⟨chain, hchain, List.mem_cons_self⟩
    rw [htoken.takeWhile_text (Piece.ne_hyphen_of_mem lexicon text hfirst), htoken.place]
    exact Piece.spells_of_mem lexicon text hfirst

/-- A text with a character of two bytes, a digit, a comment over two lines, and words that hyphens
    join to a number and to a variable. -/
theorem tokens_spell_the_text_bright :
    ∃ tokens, Token.ofText .empty "É 7, one\n- 2, Forty-Two\n moon-\tBeams!" = .ok tokens ∧
      tokens.map (fun token => (token.text, token.place)) =
        [("É", ⟨1, 1⟩), ("forty-two", ⟨2, 6⟩), ("moon-beams", ⟨3, 2⟩), ("!", ⟨3, 13⟩)] ∧
      tokens.flatMap (·.text.toList) = "Éforty-twomoon-beams!".toList ∧
      tokens.Pairwise (·.place.Precedes ·.place) ∧
      ∀ token ∈ tokens, token.place.Spells "É 7, one\n- 2, Forty-Two\n moon-\tBeams!".toList
        (token.text.toList.takeWhile (· != '-')) := by
  refine (exists_of_toOption_map (by decide +kernel)).imp fun tokens h => ⟨h.1, h.2, ?_⟩
  obtain ⟨hspelled, hplaced⟩ := tokens_spell_the_text h.1
  exact ⟨hspelled.trans (by decide), hplaced⟩

end Verse
