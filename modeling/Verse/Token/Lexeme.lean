import Verse.Position

/-!
# Lexemes

A program text is cut into words, which are longest runs of letters and apostrophes, and
single characters.  Blanks separate lexemes and are dropped.  A comma opens a comment and
the next comma closes it; lexemes inside are dropped too, across any number of lines.
-/

namespace Verse

/-- A word or a single character of a text at its place. -/
structure Lexeme where
  place : Place
  text : List Char
deriving DecidableEq

namespace Lexeme

/-- Characters that words consist of: the letters of the alphabet, and apostrophes. -/
def isWordChar (c : Char) : Bool :=
  c.isAlpha || c == '\x27'

/-- Characters that only separate lexemes within a line. -/
def isBlank (c : Char) : Bool :=
  c == ' ' || c == '\t' || c == '\r'

/-- Cut a text into lexemes.  Its first character stands at the given line and column. -/
def scan (line column : Nat) : List Char → List Lexeme
  | [] => []
  | c :: rest =>
    if c = '\n' then scan (line + 1) 1 rest
    else if isBlank c then scan line (column + 1) rest
    else if isWordChar c then
      let word := c :: rest.takeWhile isWordChar
      ⟨⟨line, column⟩, word⟩ :: scan line (column + word.length) (rest.dropWhile isWordChar)
    else ⟨⟨line, column⟩, [c]⟩ :: scan line (column + 1) rest
termination_by text => text.length
decreasing_by
  all_goals simp only [List.length_cons]
  · omega
  · omega
  · have := (List.dropWhile_sublist isWordChar (l := rest)).length_le
    omega
  · omega

/-- Whether a lexeme opens or closes a comment. -/
def isComma (lexeme : Lexeme) : Bool :=
  lexeme.text == [',']

/-- Drop comments with their commas.  `inside` says whether the first lexeme is in a
    comment. -/
def uncomment (inside : Bool) : List Lexeme → List Lexeme
  | [] => []
  | lexeme :: rest =>
    if lexeme.isComma then uncomment (!inside) rest
    else if inside then uncomment inside rest
    else lexeme :: uncomment inside rest

/-- The lexemes of a text outside its comments. -/
def ofText (text : String) : List Lexeme :=
  uncomment false (scan 1 1 text.toList)

/-- The lower-case spelling of a lexeme.  Only the letters of the alphabet are lowered. -/
def spelling (lexeme : Lexeme) : String :=
  String.ofList (lexeme.text.map Char.toLower)

end Lexeme

end Verse
