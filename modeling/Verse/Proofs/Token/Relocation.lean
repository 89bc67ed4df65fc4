import Verse.Proofs.Except
import Verse.Token.Reading

/-!
# Reading at other places

A text is read without regard to where its words stand.  With every word and hyphen moved to
another place, the same tokens and the same faults come out, moved alike.

* `Number.combine_relocate`   the words of a number make it wherever they stand
* `chains_relocate`           the tokens and faults of moved pieces
* `unplaced_gather_congr`     pieces that differ in their places only are read alike
-/

namespace Verse

/-! ## Moving things -/

section

variable (move : Place → Place)

/-- A fault at another place. -/
def Diagnostic.relocate (diagnostic : Diagnostic) : Diagnostic :=
  { diagnostic with place := move diagnostic.place }

/-- A token at another place. -/
def Token.relocate (token : Token) : Token :=
  { token with place := move token.place }

/-- A lexeme at another place. -/
def Lexeme.relocate (lexeme : Lexeme) : Lexeme :=
  { lexeme with place := move lexeme.place }

/-- A word at another place. -/
def Part.relocate (part : Part) : Part :=
  { part with place := move part.place }

/-- A word or a hyphen at another place. -/
def Piece.relocate : Piece → Piece
  | .part p => .part (p.relocate move)
  | .hyphen place => .hyphen (move place)

/-- A term of a number group at another place. -/
def Number.Term.relocate (term : Number.Term) : Number.Term :=
  { term with place := move term.place }

/-- A result that is changed, or a fault that is moved. -/
def relocateResult {α β : Type} (change : α → β) : Except Diagnostic α → Except Diagnostic β
  | .ok a => .ok (change a)
  | .error diagnostic => .error (diagnostic.relocate move)

end

variable {move : Place → Place}

/-- A change of results goes through a change that does the same to what it is applied to. -/
theorem relocateResult_map {α α' β β' : Type} {change : α → α'} {change' : β → β'} {f : α → β}
    {g : α' → β'} (h : ∀ a, change' (f a) = g (change a)) (result : Except Diagnostic α) :
    relocateResult move change' (result.map f) = (relocateResult move change result).map g := by
  cases result with
  | ok a => exact congrArg Except.ok (h a)
  | error diagnostic => rfl

/-- And through one step behind another. -/
theorem relocateResult_bind {α α' β β' : Type} {change : α → α'} {change' : β → β'}
    {next : α → Except Diagnostic β} {next' : α' → Except Diagnostic β'}
    (h : ∀ a, relocateResult move change' (next a) = next' (change a))
    (result : Except Diagnostic α) :
    relocateResult move change' (result >>= next) =
      relocateResult move change result >>= next' := by
  cases result with
  | ok a => exact h a
  | error diagnostic => rfl

/-! ## Number groups -/

namespace Number

/-- A rule of a pass that looks at values and magnitudes only. -/
def IsPlaceless (meet : Term → Term → Meeting) : Prop :=
  ∀ (move : Place → Place) (term next : Term),
    meet (term.relocate move) (next.relocate move) = meet term next

/-- A pass that looks at no places finds the same terms at other places, and the same faults. -/
theorem pass_relocate {meet : Term → Term → Meeting} (hmeet : IsPlaceless meet) (again : Bool)
    (term : Term) (rest : List Term) :
    pass meet again (term.relocate move) (rest.map (Term.relocate move)) =
      relocateResult move (List.map (Term.relocate move)) (pass meet again term rest) := by
  -- The cases are those of the pass, and in each of them both passes do the same.
  fun_induction pass meet again term rest with
  | case1 term => rfl
  | case2 term next rest h ih =>
    rw [List.map_cons, pass, hmeet, h]
    simp only
    rw [ih, relocateResult_map]
    intro terms
    rfl
  | case3 term next rest h =>
    rw [List.map_cons, pass, hmeet, h]
    rfl
  | case4 term next rest value magnitude h =>
    rename_i hagain ih
    rw [List.map_cons, pass, hmeet, h, hagain]
    rw [hagain] at ih
    exact ih
  | case5 term next value magnitude h _ hagain =>
    rw [List.map_cons, pass, hmeet, h, hagain]
    rfl
  | case6 term next value magnitude h joined hagain third rest ih =>
    rw [List.map_cons, pass, hmeet, h, hagain, List.map_cons]
    rw [hagain] at ih
    simp only [cond_false]
    rw [ih, relocateResult_map]
    intro terms
    rfl

/-- The same holds of a group that may be empty. -/
theorem passAll_relocate {meet : Term → Term → Meeting} (hmeet : IsPlaceless meet) (again : Bool)
    (terms : List Term) :
    passAll meet again (terms.map (Term.relocate move)) =
      relocateResult move (List.map (Term.relocate move)) (passAll meet again terms) := by
  cases terms with
  | nil => rfl
  | cons term rest => exact pass_relocate hmeet again term rest

/-- All five passes look at values and magnitudes only. -/
theorem reduce_relocate (arithmetic : Arithmetic) (terms : List Term) :
    reduce arithmetic (terms.map (Term.relocate move)) =
      relocateResult move (List.map (Term.relocate move)) (reduce arithmetic terms) := by
  have hunits : IsPlaceless (units arithmetic) := fun _ _ _ => rfl
  have hhundreds : IsPlaceless (hundreds arithmetic) := fun _ _ _ => rfl
  have hremainders : IsPlaceless (remainders arithmetic) := fun _ _ _ => rfl
  have hmultiples : IsPlaceless (multiples arithmetic) := fun _ _ _ => rfl
  have hsums : IsPlaceless (sums arithmetic) := fun _ _ _ => rfl
  -- One pass after the other is moved to the outside.
  rw [reduce, reduce, passAll_relocate hunits]
  refine (relocateResult_bind (fun terms => ?_) _).symm
  rw [passAll_relocate hhundreds]
  refine relocateResult_bind (fun terms => ?_) _
  rw [passAll_relocate hremainders]
  refine relocateResult_bind (fun terms => ?_) _
  rw [passAll_relocate hmultiples]
  refine relocateResult_bind (fun terms => ?_) _
  rw [passAll_relocate hsums]

/-- The words of a number make it wherever they stand. -/
theorem combine_relocate (arithmetic : Arithmetic) (first : Term) (rest : List Term) :
    combine arithmetic (first.relocate move) (rest.map (Term.relocate move)) =
      relocateResult move (Term.relocate move) (combine arithmetic first rest) := by
  rw [combine, combine, ← List.map_cons, reduce_relocate]
  cases reduce arithmetic (first :: rest) with
  | error diagnostic => rfl
  | ok terms =>
    cases terms with
    | nil => rfl
    | cons left terms => cases terms <;> rfl

end Number

/-! ## Chains -/

/-- A word is a number at any place. -/
theorem Part.term?_relocate (part : Part) :
    (part.relocate move).term? = part.term?.map (Number.Term.relocate move) := by
  obtain ⟨place, text, word⟩ := part
  cases word <;> rfl

/-- So are some words, or else they are no numbers at any place. -/
theorem mapM_term?_relocate (parts : List Part) :
    (parts.map (Part.relocate move)).mapM Part.term? =
      (parts.mapM Part.term?).map (List.map (Number.Term.relocate move)) := by
  induction parts with
  | nil => rfl
  | cons part parts ih =>
    rw [List.map_cons, List.mapM_cons, List.mapM_cons, Part.term?_relocate, ih]
    cases part.term? <;> cases parts.mapM Part.term? <;> rfl

/-- A name has the place of its first word and nothing else to do with places. -/
theorem variableOf_relocate (first : Part) (rest : List Part) :
    variableOf (first.relocate move) (rest.map (Part.relocate move)) =
      (variableOf first rest).relocate move := by
  rw [variableOf, variableOf, List.all_map, ← List.map_cons, List.map_map]
  rfl

/-- A chain is read alike at any place. -/
theorem chainToken_relocate (first : Part) (rest : List Part) :
    chainToken (first.relocate move) (rest.map (Part.relocate move)) =
      relocateResult move (Token.relocate move) (chainToken first rest) := by
  have hmark : ((first :: rest).map (Part.relocate move)).find? (·.isMark) =
      ((first :: rest).find? (·.isMark)).map (Part.relocate move) := List.find?_map
  rw [chainToken, chainToken, ← List.map_cons, hmark]
  cases (first :: rest).find? (·.isMark) with
  | some mark => rfl
  | none =>
    -- Without a mark it is asked whether all words are numbers, and places play no part in that.
    rw [Part.term?_relocate, mapM_term?_relocate, variableOf_relocate]
    cases first.term? with
    | none => rfl
    | some term =>
      cases rest.mapM Part.term? with
      | none => rfl
      | some terms =>
        simp only [Option.map_none, Option.map_some]
        rw [Number.combine_relocate, relocateResult_map]
        intro number
        rfl

/-- Words are joined at any place. -/
theorem joined_relocate (pieces : List Piece) :
    joined (pieces.map (Piece.relocate move)) =
      ((joined pieces).1.map (Part.relocate move), (joined pieces).2.1.map move,
        (joined pieces).2.2.map (Piece.relocate move)) := by
  fun_induction joined pieces with
  | case1 place part rest parts dangling left h ih =>
    rw [h] at ih
    simp only [List.map_cons, Piece.relocate, joined, ih]
  | case2 place rest h =>
    cases rest with
    | nil => rfl
    | cons piece rest =>
      cases piece with
      | part part => exact absurd rfl (h part rest)
      | hyphen place => rfl
  | case3 pieces h h' =>
    cases pieces with
    | nil => rfl
    | cons piece rest =>
      cases piece with
      | part part => rfl
      | hyphen place => exact absurd rfl (h' place rest)

/-- The tokens and faults of moved pieces are moved alike. -/
theorem chains_relocate (pieces : List Piece) :
    chains (pieces.map (Piece.relocate move)) =
      (chains pieces).map (relocateResult move (Token.relocate move)) := by
  fun_induction chains pieces with
  | case1 => rw [List.map_nil, chains, List.map_nil]
  | case2 place rest ih =>
    rw [List.map_cons, Piece.relocate, chains, ih]
    rfl
  | case3 first pieces chain dangling token ih =>
    -- A hyphen that joins nothing has its fault moved, and a chain has its token moved.
    have hdangling : ((chain.2.1.map move).toList.map fun place =>
        (.error ⟨place, .danglingHyphen⟩ : Except Diagnostic Token)) =
        dangling.map (relocateResult move (Token.relocate move)) := by
      simp only [dangling]
      cases chain.2.1 <;> rfl
    have htoken : (if (chain.1.map (Part.relocate move)).isEmpty then
          .ok (first.relocate move).token
        else chainToken (first.relocate move) (chain.1.map (Part.relocate move))) =
        relocateResult move (Token.relocate move) token := by
      simp only [token, List.isEmpty_map, chainToken_relocate]
      split <;> rfl
    rw [List.map_cons, Piece.relocate, chains, joined_relocate]
    simp only
    rw [hdangling, htoken, ih, List.map_append, List.map_cons]

/-! ## Readings without places -/

/-- A token without its place. -/
def Token.unplaced (token : Token) : String × Token.Kind :=
  (token.text, token.kind)

/-- What becomes of reading a text, without places: how each token is spelled and of what class it
    is, or else what is wrong with the text. -/
def unplaced : Except ProgramFault (List Token) →
    Except (List TextFault) (List (String × Token.Kind))
  | .ok tokens => .ok (tokens.map Token.unplaced)
  | .error fault => .error (fault.all.map Diagnostic.fault)

/-- Without places nothing is seen of a move. -/
theorem unplaced_gather_relocate (results : List (Except Diagnostic Token)) :
    unplaced (gather (results.map (relocateResult move (Token.relocate move)))) =
      unplaced (gather results) := by
  induction results with
  | nil => rfl
  | cons result results ih =>
    rw [List.map_cons]
    -- Whatever the other results are, they show the same without their places.
    generalize results.map (relocateResult move (Token.relocate move)) = moved at ih ⊢
    cases result with
    | ok token =>
      simp only [relocateResult, gather]
      cases hmoved : gather moved <;> cases hresults : gather results <;>
        simp_all [unplaced, Except.map, Token.unplaced, Token.relocate]
    | error diagnostic =>
      simp only [relocateResult, gather]
      cases hmoved : gather moved <;> cases hresults : gather results <;>
        simp_all [unplaced, Diagnostic.relocate, ProgramFault.all]

/-- Pieces that differ in their places only are read alike. -/
theorem unplaced_gather_congr {pieces pieces' : List Piece}
    (h : pieces.map (Piece.relocate move) = pieces'.map (Piece.relocate move)) :
    unplaced (gather (chains pieces)) = unplaced (gather (chains pieces')) := by
  rw [← @unplaced_gather_relocate move, ← chains_relocate, h, chains_relocate,
    unplaced_gather_relocate]

end Verse
