import Verse.Lexicon.Basic
import Verse.Number.Group
import Verse.Token.Basic
import Verse.Token.Lexeme

/-!
# Words and hyphen chains

Outside comments a program text is a sequence of words, punctuation marks and hyphens.  A
hyphen joins the words on either side of it, so that every longest chain of joined words
becomes one token.  A chain of number words is one number, any other chain is one variable.

* `Piece.ofLexemes`   the words and hyphens of a text
* `chains`            the tokens of all chains, or what is wrong with them
-/

namespace Verse

/-- What a word of a program text is. -/
inductive Word where
  | command (command : Command)
  | number (value : Nat)
  | variable (element : Element)
  | mark
deriving DecidableEq

/-- A word at its place, spelled in lower case. -/
structure Part where
  place : Place
  text : String
  word : Word
deriving DecidableEq

/-- A word, or a hyphen that joins its neighbours. -/
inductive Piece where
  | part (part : Part)
  | hyphen (place : Place)
deriving DecidableEq

namespace Word

/-- The word of a spelling: a command or a number if it spells one, else a variable with the
    element that the lexicon knows. -/
def ofSpelling (lexicon : Lexicon) (spelling : String) : Word :=
  match Command.ofWord? spelling, Number.ofWord? spelling with
  | some c, _ => .command c
  | none, some n => .number n
  | none, none => .variable (lexicon.element spelling)

/-- The class of the token that a word makes. -/
def kind : Word → Token.Kind
  | .command c => .reserved (Float.ofNat c.code)
  | .number n => .number (Float.ofNat n)
  | .variable e => .variable e
  | .mark => .punctuation

end Word

namespace Part

/-- The token of a word that stands alone. -/
def token (part : Part) : Token :=
  { place := part.place, text := part.text, kind := part.word.kind }

/-- The element of a part.  Only variables have one of their own. -/
def element (part : Part) : Element :=
  part.word.kind.element

/-- Whether a part is a punctuation mark. -/
def isMark (part : Part) : Bool :=
  part.word == .mark

/-- The term of a part that is a number. -/
def term? (part : Part) : Option Number.Term :=
  match part.word with
  | .number value => some (.ofValue part.place part.text value)
  | _ => none

end Part

namespace Piece

/-- Whether a lexeme is a digit.  Digits are no part of the language. -/
def isDigit (lexeme : Lexeme) : Bool :=
  lexeme.text.any Char.isDigit

/-- The word or hyphen of a lexeme outside comments. -/
def ofLexeme (lexicon : Lexicon) (lexeme : Lexeme) : Piece :=
  if lexeme.text = ['-'] then .hyphen lexeme.place
  else
    let word :=
      if lexeme.text.any Lexeme.isWordChar then Word.ofSpelling lexicon lexeme.spelling else .mark
    .part { place := lexeme.place, text := lexeme.spelling, word }

/-- The words and hyphens of a text, its digits left out. -/
def ofLexemes (lexicon : Lexicon) (lexemes : List Lexeme) : List Piece :=
  (lexemes.filter (!isDigit ·)).map (ofLexeme lexicon)

end Piece

/-- The words joined to the word before some pieces, the place of a hyphen that joins
    nothing, and the pieces that are left.  What follows such a hyphen is skipped with
    it. -/
def joined : List Piece → List Part × Option Place × List Piece
  | .hyphen _ :: .part part :: rest =>
    let (parts, dangling, rest) := joined rest
    (part :: parts, dangling, rest)
  | .hyphen place :: rest => ([], some place, rest.drop 1)
  | rest => ([], none, rest)

theorem length_joined_le (pieces : List Piece) :
    (joined pieces).2.2.length ≤ pieces.length := by
  fun_induction joined pieces with
  | case1 => simp_all; omega
  | case2 => simp; omega
  | case3 => simp

/-- The variable that a chain of words names.  It has the element that its parts agree on,
    or else earth. -/
def variableOf (first : Part) (rest : List Part) : Token :=
  let element := if rest.all (·.element == first.element) then first.element else .earth
  { place := first.place
    text := "-".intercalate ((first :: rest).map (·.text))
    kind := .variable element }

/-- The token of a chain of at least two words. -/
def chainToken (first : Part) (rest : List Part) : Except Diagnostic Token :=
  match (first :: rest).find? (·.isMark) with
  | some mark => .error ⟨mark.place, .hyphenatedMark mark.text⟩
  | none =>
    match first.term?, rest.mapM Part.term? with
    | some term, some terms =>
      (Number.combine .saturating term terms).map fun number =>
        { place := number.place, text := number.text, kind := .number (Float.ofNat number.value) }
    | _, _ => .ok (variableOf first rest)

/-- The tokens of all chains in the order of the text, or what is wrong with them. -/
def chains : List Piece → List (Except Diagnostic Token)
  | [] => []
  | .hyphen place :: rest => .error ⟨place, .leadingHyphen⟩ :: chains rest
  | .part first :: pieces =>
    let chain := joined pieces
    let dangling := chain.2.1.toList.map fun place => .error ⟨place, .danglingHyphen⟩
    let token := if chain.1.isEmpty then .ok first.token else chainToken first chain.1
    dangling ++ token :: chains chain.2.2
termination_by pieces => pieces.length
decreasing_by
  · simp
  · have := length_joined_le pieces
    simp only [List.length_cons]
    omega

end Verse
