import Verse.Position

/-!
# Faults of a program text

Each fault is found at a place of the text.  A text with any fault is not a program.
-/

namespace Verse

/-- What can be wrong with a program text. -/
inductive TextFault where
  /-- No word stands before a hyphen. -/
  | leadingHyphen
  /-- No word stands after a hyphen. -/
  | danglingHyphen
  /-- A punctuation mark stands next to a hyphen. -/
  | hyphenatedMark (mark : String)
  /-- Two numbers of one hyphen group do not make a number. -/
  | unjoinable (first second : String)
deriving DecidableEq

/-- The text of a fault. -/
def TextFault.message : TextFault → String
  | .leadingHyphen => "hyphen with nothing before it"
  | .danglingHyphen => "dangling hyphen"
  | .hyphenatedMark mark => "\"" ++ mark ++ "\" cannot be hyphenated"
  | .unjoinable first second =>
    "cannot combine number \"" ++ first ++ "\" with number \"" ++ second ++ "\""

/-- A fault at its place. -/
structure Diagnostic where
  place : Place
  fault : TextFault
deriving DecidableEq

/-- The text of a fault with its place. -/
def Diagnostic.message (diagnostic : Diagnostic) : String :=
  diagnostic.place.text ++ ": " ++ diagnostic.fault.message

/-- All faults of a text that is not a program, in the order in which they are found. -/
structure ProgramFault where
  first : Diagnostic
  rest : List Diagnostic
deriving DecidableEq

namespace ProgramFault

/-- The faults, of which there is at least one. -/
def all (fault : ProgramFault) : List Diagnostic :=
  fault.first :: fault.rest

/-- The text that counts the faults and gives the first. -/
def message (fault : ProgramFault) : String :=
  "program text has " ++ toString fault.all.length ++ " error(s), first at " ++ fault.first.message

end ProgramFault

end Verse
