import Verse.Proofs.Token.Source

/-!
# The hyphen grammar

A text is a program if its hyphens keep the rules and its chains of number words are numbers.
Then it has one token for each maximal chain; otherwise it has faults, each at a piece of the text.

* `ofText_isOk_iff`             the texts that have tokens
* `piece_of_fault`              a fault stands at a hyphen, a mark or a number word
* `hyphen_grammar_is_exact`     the grammar, the tokens and the faults together
-/

namespace Verse

/-- What a fault can stand at: a hyphen, a punctuation mark or a number word. -/
def Piece.canFault : Piece → Bool
  | .part p => p.isMark || p.isNumber
  | .hyphen _ => true

/-- A chain of number words is accepted if they are read as one number. -/
def Chain.IsAccepted (chain : Chain) : Prop :=
  (∀ part ∈ chain.parts, part.isNumber = true) → ∃ number, chain.ReadAs number

/-- The texts that have tokens. -/
theorem ofText_isOk_iff {lexicon : Lexicon} {text : String} :
    (∃ tokens, Token.ofText lexicon text = .ok tokens) ↔
      WellJoined (Piece.ofLexemes lexicon (Lexeme.ofText text)) ∧
        ∀ chain : Chain, chain.IsMaximal (Piece.ofLexemes lexicon (Lexeme.ofText text)) →
          chain.IsAccepted := by
  simp only [ofText_eq_ok_iff, wellJoined_iff]
  constructor
  · rintro ⟨tokens, cs, hpieces, htokens⟩
    -- Where there are tokens, each chain makes one, and so it is joinable and accepted.
    have hcs : ∀ chain ∈ cs, chain.IsJoinable ∧ chain.IsAccepted := fun chain hchain =>
      Chain.exists_token_iff.mp (exists_forall₂_iff.mp ⟨tokens, htokens⟩ chain hchain)
    refine ⟨⟨cs, hpieces, fun chain hchain => (hcs chain hchain).1⟩, fun chain hmaximal => ?_⟩
    rw [hpieces] at hmaximal
    exact (hcs chain (Chain.isMaximal_iff.mp hmaximal)).2
  · rintro ⟨⟨cs, hpieces, hjoinable⟩, haccepted⟩
    rw [hpieces] at haccepted
    -- Where every maximal chain is accepted, each of the chains makes a token.
    obtain ⟨tokens, htokens⟩ := exists_forall₂_iff.mpr fun chain hchain =>
      Chain.exists_token_iff.mpr
        ⟨hjoinable chain hchain, haccepted chain (Chain.isMaximal_iff.mpr hchain)⟩
    exact ⟨tokens, cs, hpieces, htokens⟩

/-! ## Faults -/

/-- Every fault that is reported is one of the results. -/
theorem mem_of_gather_eq_error {results : List (Except Diagnostic Token)} {fault : ProgramFault}
    (h : gather results = .error fault) {diagnostic : Diagnostic}
    (hdiagnostic : diagnostic ∈ fault.all) : .error diagnostic ∈ results := by
  induction results generalizing fault with
  | nil => cases h
  | cons result results ih =>
    cases result with
    | ok token => exact List.mem_cons_of_mem _ (ih (map_eq_error_iff.mp h) hdiagnostic)
    | error first =>
      rw [gather] at h
      -- Tokens behind a fault are given up, and further faults are added to it.
      cases hrest : gather results with
      | ok tokens =>
        rw [hrest] at h
        cases h
        obtain rfl := List.mem_singleton.mp hdiagnostic
        exact List.mem_cons_self
      | error rest =>
        rw [hrest] at h
        cases h
        obtain rfl | hdiagnostic := List.mem_cons.mp hdiagnostic
        · exact List.mem_cons_self
        · exact List.mem_cons_of_mem _ (ih hrest hdiagnostic)

/-- The words of a chain are among its pieces. -/
theorem Chain.part_mem_pieces {chain : Chain} {part : Part} (h : part ∈ chain.parts) :
    .part part ∈ chain.pieces := by
  obtain rfl | h := List.mem_cons.mp h
  · exact List.mem_cons_self
  · obtain ⟨link, hlink, rfl⟩ := List.mem_map.mp h
    exact List.mem_cons_of_mem _ (List.mem_flatMap.mpr ⟨link, hlink, by simp⟩)

/-- A fault of a chain stands at one of its pieces. -/
theorem Chain.piece_of_fault {chain : Chain} {diagnostic : Diagnostic}
    (h : .error diagnostic = chain.token) :
    ∃ piece ∈ chain.pieces, piece.place = diagnostic.place ∧ piece.canFault = true := by
  obtain ⟨part, hpart, hplace, hfault⟩ := chain.place_of_fault h.symm
  exact ⟨.part part, part_mem_pieces hpart, hplace, hfault⟩

/-- A fault stands at a hyphen, a mark or a number word. -/
theorem piece_of_fault {pieces : List Piece} {diagnostic : Diagnostic}
    (h : .error diagnostic ∈ chains pieces) :
    ∃ piece ∈ pieces, piece.place = diagnostic.place ∧ piece.canFault = true := by
  induction pieces using chain_induction with
  | nil =>
    rw [chains] at h
    cases h
  | leading place rest ih =>
    rw [chains_leading] at h
    obtain h | h := List.mem_cons.mp h
    · cases h
      exact ⟨.hyphen place, List.mem_cons_self, rfl, rfl⟩
    · obtain ⟨piece, hpiece, hfault⟩ := ih h
      exact ⟨piece, List.mem_cons_of_mem _ hpiece, hfault⟩
  | chain chain rest hrest ih =>
    rw [chains_chain chain hrest] at h
    obtain h | h := List.mem_cons.mp h
    · obtain ⟨piece, hpiece, hfault⟩ := Chain.piece_of_fault h
      exact ⟨piece, List.mem_append_left _ hpiece, hfault⟩
    · obtain ⟨piece, hpiece, hfault⟩ := ih h
      exact ⟨piece, List.mem_append_right _ hpiece, hfault⟩
  | dangling chain place rest hrest ih =>
    rw [chains_dangling chain place hrest] at h
    -- The hyphen comes first, then the chain before it, then what is read on behind both.
    obtain h | h := List.mem_cons.mp h
    · cases h
      exact ⟨.hyphen place, by simp, rfl, rfl⟩
    obtain h | h := List.mem_cons.mp h
    · obtain ⟨piece, hpiece, hfault⟩ := Chain.piece_of_fault h
      exact ⟨piece, List.mem_append_left _ hpiece, hfault⟩
    · obtain ⟨piece, hpiece, hfault⟩ := ih h
      exact ⟨piece, List.mem_append_right _ (List.mem_cons_of_mem _ (List.mem_of_mem_drop hpiece)),
        hfault⟩

/-- The pieces of a text are its words, marks and hyphens, without comments, digits and blanks.  It
    has tokens if none of its hyphens is the first or the last piece, or stands next to another
    hyphen or a punctuation mark, and if every maximal chain of number words is a number.  Then
    there is one token for each maximal chain, in the order of the text.  Otherwise there is none,
    and each fault stands where the text has a hyphen, a mark or a number word. -/
theorem hyphen_grammar_is_exact (lexicon : Lexicon) (text : String) :
    let pieces := Piece.ofLexemes lexicon (Lexeme.ofText text)
    (pieces.flatMap Piece.chars = (Lexeme.legible false text.toList).map Char.toLower ∧
      ∀ piece ∈ pieces, piece.place.Spells text.toList piece.chars) ∧
    ((∃ tokens, Token.ofText lexicon text = .ok tokens) ↔
      WellJoined pieces ∧ ∀ chain : Chain, chain.IsMaximal pieces → chain.IsAccepted) ∧
    (∀ tokens, Token.ofText lexicon text = .ok tokens →
      ∃ cs : List Chain, pieces = cs.flatMap Chain.pieces ∧
        (∀ chain, chain ∈ cs ↔ chain.IsMaximal pieces) ∧ List.Forall₂ Chain.Makes cs tokens) ∧
    ∀ fault, Token.ofText lexicon text = .error fault → ∀ diagnostic ∈ fault.all,
      ∃ piece ∈ pieces, piece.canFault = true ∧ piece.place = diagnostic.place ∧
        diagnostic.place.Spells text.toList piece.chars ∧
        0 < diagnostic.place.line ∧ 0 < diagnostic.place.column := by
  refine ⟨⟨Piece.flatMap_chars lexicon text, fun piece => Piece.spells_of_mem lexicon text⟩,
    ofText_isOk_iff, fun tokens h => ?_, fun fault h diagnostic hdiagnostic => ?_⟩
  · obtain ⟨cs, hpieces, hcs⟩ := ofText_eq_ok_iff.mp h
    refine ⟨cs, hpieces, fun chain => ?_, hcs.imp fun _ _ => Chain.makes_of_token⟩
    rw [hpieces]
    exact Chain.isMaximal_iff.symm
  · obtain ⟨piece, hpiece, hplace, hfault⟩ := piece_of_fault (mem_of_gather_eq_error h hdiagnostic)
    have hspells := Piece.spells_of_mem lexicon text hpiece
    rw [hplace] at hspells
    exact ⟨piece, hpiece, hfault, hplace, hspells, hspells.pos⟩

/-- A chain of number words, one of other words and a single word; and a text with two hyphens in a
    row, one behind a mark at its end, and number words that are no number. -/
theorem hyphen_grammar_is_exact_moonlit :
    (∃ tokens, Token.ofText .empty "Forty-Two moon-ten light" = .ok tokens ∧
      tokens.map (·.text) = ["forty-two", "moon-ten", "light"] ∧
      ∃ cs : List Chain, List.Forall₂ Chain.Makes cs tokens ∧ ∀ chain, chain ∈ cs ↔
        chain.IsMaximal (Piece.ofLexemes .empty (Lexeme.ofText "Forty-Two moon-ten light"))) ∧
    ∃ fault, Token.ofText .empty "moon--sea two-ten !-" = .error fault ∧
      ∀ diagnostic ∈ fault.all, ∃ piece ∈
        Piece.ofLexemes .empty (Lexeme.ofText "moon--sea two-ten !-"),
        piece.canFault = true ∧ piece.place = diagnostic.place := by
  constructor
  · refine (exists_of_toOption_map (by decide +kernel)).imp fun tokens h => ⟨h.1, h.2, ?_⟩
    obtain ⟨cs, -, hmaximal, hmakes⟩ := (hyphen_grammar_is_exact _ _).2.2.1 tokens h.1
    exact ⟨cs, hmakes, hmaximal⟩
  · refine (exists_of_toOption_none (by decide +kernel)).imp fun fault h => ⟨h, ?_⟩
    intro diagnostic hdiagnostic
    obtain ⟨piece, hpiece, hfault, hplace, -⟩ :=
      (hyphen_grammar_is_exact _ _).2.2.2 fault h diagnostic hdiagnostic
    exact ⟨piece, hpiece, hfault, hplace⟩

end Verse
