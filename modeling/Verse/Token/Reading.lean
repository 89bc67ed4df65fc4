import Verse.Token.Chain

/-!
# Reading a program text

A text is cut into lexemes, these into words and hyphens, and those into chains.  A single
fault anywhere leaves no tokens at all; all faults of the text are reported together.
Digits are skipped, and reported too.
-/

namespace Verse

/-- A digit outside comments, which the reader skips. -/
structure StrayDigit where
  place : Place
  digit : List Char
deriving DecidableEq

/-- The text that reports a skipped digit. -/
def StrayDigit.message (stray : StrayDigit) : String :=
  stray.place.text ++ ": unexpected character '" ++ String.ofList stray.digit ++ "'"

/-- The tokens of all chains, unless one of them is faulty. -/
def gather : List (Except Diagnostic Token) → Except ProgramFault (List Token)
  | [] => .ok []
  | .ok token :: rest => (gather rest).map (token :: ·)
  | .error diagnostic :: rest =>
    match gather rest with
    | .ok _ => .error { first := diagnostic, rest := [] }
    | .error fault => .error { first := diagnostic, rest := fault.all }

namespace Token

/-- The tokens of a program text, in the order of the text. -/
def ofText (lexicon : Lexicon) (text : String) : Except ProgramFault (List Token) :=
  gather (chains (Piece.ofLexemes lexicon (Lexeme.ofText text)))

/-- The digits that reading a text skips. -/
def straysOf (text : String) : List StrayDigit :=
  ((Lexeme.ofText text).filter Piece.isDigit).map fun lexeme => ⟨lexeme.place, lexeme.text⟩

end Token

end Verse
