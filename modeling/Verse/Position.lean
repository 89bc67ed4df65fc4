/-!
# Positions

Where a rung comes from: a place in the program text, or the program's input.
-/

namespace Verse

/-- A line and a column of a text, both counted from one; columns count characters. -/
structure Place where
  line : Nat
  column : Nat
deriving DecidableEq

/-- The text of a place. -/
def Place.text (place : Place) : String :=
  "(" ++ toString place.line ++ ", " ++ toString place.column ++ ")"

/-- Where a rung comes from. -/
inductive Position where
  /-- A word of the program text. -/
  | source (place : Place)
  /-- A value that was read from the input, by its number; values count from zero. -/
  | input (event : Nat)
deriving DecidableEq

/-- The text of a position. -/
def Position.text : Position → String
  | .source place => place.text
  | .input event => "(INPUT, " ++ toString event ++ ")"

end Verse
