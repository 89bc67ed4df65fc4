import Verse.Element
import Verse.Numeric.Shortest
import Verse.Position

/-!
# Tokens

A token is one word, number or punctuation mark of a program text, already classified.
Tokens are what a program is loaded from: each becomes one rung of the tape.
-/

namespace Verse

/-- The class of a token, with what the class carries. -/
inductive Token.Kind where
  /-- A reserved word with its command code. -/
  | reserved (code : Float)
  /-- The name of a variable, with the element that the variable starts with. -/
  | variable (element : Element)
  /-- A number. -/
  | number (value : Float)
  /-- A punctuation mark. -/
  | punctuation
deriving DecidableEq

/-- A token at its place, spelled in lower case. -/
structure Token where
  place : Place
  text : String
  kind : Token.Kind
deriving DecidableEq

namespace Token

/-- The name of a class of tokens. -/
def Kind.name : Kind → String
  | .reserved _ => "RESERVED_WORD"
  | .variable _ => "VARIABLE"
  | .number _ => "NUMBER"
  | .punctuation => "PUNCTUATION"

/-- The number that a token carries: a command code, a value, or zero. -/
def Kind.value : Kind → Float
  | .reserved code => code
  | .number value => value
  | _ => 0.0

/-- The element of a token.  Only variables have one of their own. -/
def Kind.element : Kind → Element
  | .variable element => element
  | _ => .earth

/-- The text that lists a token. -/
def display (token : Token) : String :=
  token.place.text ++ " \"" ++ token.text ++ "\" " ++ token.kind.name ++ " " ++
    Numeric.display token.kind.value ++ " " ++ token.kind.element.name

end Token

end Verse
