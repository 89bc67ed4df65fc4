import Verse.Input
import Verse.Numeric.General
import Verse.Variables

/-!
# What happens in a run

While it runs, the machine keeps a journal of all that can be observed from outside: the
rungs it executes, the texts it prints, the values it reads, and what it has to say about
the program.  Whoever listens to a run, be it the output, the trace or the log, is told of
these events and of nothing else.
-/

namespace Verse

/-- The rung of a captured block: the variable that holds the block, and the rung's
    index. -/
structure Frame where
  name : String
  index : Nat
deriving DecidableEq

/-- What a dump of the machine shows: the tape, the two cursors and the variables.  The
    bureaucrat points at the rung to be executed, the delegate at the operand of most
    commands. -/
structure Snapshot where
  tape : List Rung := []
  bureaucrat : Nat := 0
  delegate : Nat := 0
  vars : Variables := .empty

/-- The ways in which a command moves the bureaucrat. -/
inductive March where
  | promoted | demoted | blossomed
deriving DecidableEq

/-- The word for a move of the bureaucrat. -/
def March.verb : March → String
  | .promoted => "promoted"
  | .demoted => "demoted"
  | .blossomed => "blossomed"

/-- The ways in which a command moves the delegate. -/
inductive Drift where
  | rose | fell
deriving DecidableEq

/-- The word for a move of the delegate. -/
def Drift.verb : Drift → String
  | .rose => "rose"
  | .fell => "fell"

/-- What the machine remarks on and then goes on. -/
inductive Notice where
  /-- A command code that names no command was executed. -/
  | invalidCommand (name : String) (code : Float)
  /-- No rung follows a punctuation mark to name its block. -/
  | lastPunctuation
  /-- The rung that names a block is no variable. -/
  | namelessBlock (name : String)
  | marchedNegative (march : March) (value : Float)
  | marchedBelow (march : March)
  | driftedNegative (drift : Drift) (offset : Int)
  | driftedBelow (drift : Drift)
  | driftedAbove (drift : Drift)
  | noCharacter (code : Int)
  /-- No rung follows the delegate to give a second operand. -/
  | lastOperand
  /-- No relation leads from the one element to the other. -/
  | unrelated (earlier later : Element)
  /-- The line of input is not text. -/
  | garbledInput
deriving DecidableEq

/-- What the machine cannot go on after. -/
inductive Fault where
  /-- A block does not end before the tape does. -/
  | endlessBlock
  /-- The bureaucrat was sent past the end of the tape. -/
  | marchedPast (march : March)
deriving DecidableEq

/-- The text of a notice. -/
def Notice.message : Notice → String
  | .invalidCommand name code =>
    "command \"" ++ name ++ "\" (code " ++ Numeric.display code ++ ") cannot be executed"
  | .lastPunctuation => "punctuation at the end of the program"
  | .namelessBlock name =>
    "a block cannot be stored in \"" ++ name ++ "\", which is not a variable"
  | .marchedNegative march value =>
    "bureaucrat " ++ march.verb ++ " by a negative value, " ++ Numeric.general value
  | .marchedBelow march => "bureaucrat " ++ march.verb ++ " below the start of the program"
  | .driftedNegative drift offset =>
    "delegate " ++ drift.verb ++ " by a negative value, " ++ toString offset
  | .driftedBelow drift => "delegate " ++ drift.verb ++ " below the start of the program"
  | .driftedAbove drift => "delegate " ++ drift.verb ++ " above the bureaucrat"
  | .noCharacter code => toString code ++ " is not a character code"
  | .lastOperand => "operate at the end of the program has no second operand"
  | .unrelated earlier later =>
    "no relation leads from " ++ earlier.name ++ " to " ++ later.name ++ ", operate does nothing"
  | .garbledInput => "could not read program input: stream did not contain valid UTF-8"

/-- The text of a fault. -/
def Fault.message : Fault → String
  | .endlessBlock => "the end of the program was reached before a block ended"
  | .marchedPast march => "bureaucrat " ++ march.verb ++ " past the end of the program"

/-- Something that happens in a run. -/
inductive Event where
  /-- A rung is about to be executed, as the rung of a block if there is a frame.
      Executions count from zero. -/
  | executed (step : Nat) (frame : Option Frame) (rung : Rung) (scene : Snapshot)
  /-- A text is printed. -/
  | printed (text : String)
  /-- A value is read from the input. -/
  | heard (event : InputEvent)
  /-- The machine remarks on something. -/
  | noticed (notice : Notice)
  /-- The machine gives up. -/
  | failed (fault : Fault)

end Verse
