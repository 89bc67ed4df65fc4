import Verse.Lexicon.Basic
import Verse.Token.Basic

/-!
# Rungs

The tape of the machine is a ladder of rungs.  A rung remembers where it comes from and how
it was spelled; only its cell and its element decide what it does.
-/

namespace Verse

/-- What a rung holds. -/
inductive Cell where
  /-- A command. -/
  | command (command : Command)
  /-- A command code that names no command. -/
  | invalid (code : Float)
  /-- The variable of a name. -/
  | variable (name : String)
  /-- A number. -/
  | literal (value : Float)
  /-- A punctuation mark. -/
  | punctuation
deriving DecidableEq

/-- One cell of the tape with its element, its position and its spelling. -/
structure Rung where
  position : Position
  name : String
  element : Element
  cell : Cell
deriving DecidableEq

namespace Cell

/-- The name of a cell's kind. -/
def kindName : Cell → String
  | .command _ | .invalid _ => "COMMAND"
  | .variable _ => "VARIABLE"
  | .literal _ => "LITERAL"
  | .punctuation => "PUNCTUATION"

/-- The text of a cell. -/
def display (cell : Cell) : String :=
  match cell with
  | .command c => cell.kindName ++ " " ++ c.name
  | .invalid code => cell.kindName ++ " INVALID(" ++ Numeric.display code ++ ")"
  | .variable name => cell.kindName ++ " " ++ name
  | .literal value => cell.kindName ++ " " ++ Numeric.display value
  | .punctuation => cell.kindName

/-- Whether two cells hold the same: variables of one name, equal commands, or equal
    numbers.  Punctuation marks match nothing. -/
def isLike : Cell → Cell → Bool
  | .variable a, .variable b => a == b
  | .command a, .command b => a == b
  | .invalid a, .invalid b => a == b
  | .literal a, .literal b => a == b
  | _, _ => false

/-- The cell of a token.  Variables are kept under the canonical form of their spelling. -/
def ofToken (lexicon : Lexicon) (token : Token) : Cell :=
  match token.kind with
  | .reserved code =>
    match Command.ofCode? code with
    | some c => .command c
    | none => .invalid code
  | .variable _ => .variable (lexicon.canonical token.text)
  | .number value => .literal value
  | .punctuation => .punctuation

end Cell

namespace Rung

/-- The text of a rung. -/
def display (rung : Rung) : String :=
  rung.position.text ++ " \"" ++ rung.name ++ "\" " ++ rung.cell.display ++ " " ++ rung.element.name

/-- The rung of a token. -/
def ofToken (lexicon : Lexicon) (token : Token) : Rung where
  position := .source token.place
  name := token.text
  element := token.kind.element
  cell := Cell.ofToken lexicon token

/-- Whether two rungs hold the same. -/
def isLike (rung other : Rung) : Bool :=
  rung.cell.isLike other.cell

/-- Whether a rung is a punctuation mark. -/
def isPunctuation (rung : Rung) : Bool :=
  rung.cell == .punctuation

/-- The name of the variable that a rung stands for. -/
def variableName? (rung : Rung) : Option String :=
  match rung.cell with
  | .variable name => some name
  | _ => none

/-- Whether a rung ends a block that is named by another: a punctuation mark does, and so
    does the name said again. -/
def endsBlockOf (rung name : Rung) : Bool :=
  rung.isPunctuation || name.isLike rung

end Rung

end Verse
