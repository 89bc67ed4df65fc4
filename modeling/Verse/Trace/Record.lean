import Verse.Machine.Event
import Verse.Trace.Table

/-!
# Trace records

A trace shows the machine before every rung that it records, the texts that are printed, and
the machine at the end of the run.  A dump of the machine is two tables.  The first shows
the tape in the order of the program text, that is, the last index first, with the two
cursors; the second shows the variables, with the rungs of their blocks.

* `TapeRow.ofSnapshot`        the rows of the tape
* `VariableRow.ofVariables`   the rows of the variables
-/

namespace Verse

/-- A row of the tape: an index with the cursors on it, and its rung.  Behind the last index
    there is no rung. -/
structure TapeRow where
  delegate : Bool
  bureaucrat : Bool
  index : Nat
  rung : Option Rung

namespace TapeRow

/-- The rows of the tape, the last index first.  A bureaucrat behind the tape has a row of
    its own. -/
def ofSnapshot (scene : Snapshot) : List TapeRow :=
  let rows := scene.tape.mapIdx fun i rung =>
    { delegate := i == scene.delegate, bureaucrat := i == scene.bureaucrat, index := i,
      rung := some rung }
  let last : List TapeRow :=
    if scene.tape.length ≤ scene.bureaucrat then
      [{ delegate := false, bureaucrat := true, index := scene.tape.length, rung := none }]
    else []
  rows.reverse ++ last

/-- The marks of the cursors. -/
def marks (row : TapeRow) : String :=
  match row.delegate, row.bureaucrat with
  | true, true => "D> B>"
  | true, false => "D>   "
  | false, true => "   B>"
  | false, false => ""

/-- The contents of a cell, with the binding of its variable. -/
def contents (vars : Variables) : Cell → String
  | .command c => c.name
  | .invalid code => "INVALID(" ++ Numeric.display code ++ ")"
  | .variable name =>
    match (vars.get? name).map Variable.binding with
    | none => name ++ ": unset"
    | some (.value value) => name ++ ": " ++ Numeric.general value
    | some (.block rungs) => name ++ ": block of " ++ toString rungs.length
  | .literal value => Numeric.general value
  | .punctuation => ""

/-- The cells of a row. -/
def cells (vars : Variables) (row : TapeRow) : List String :=
  row.marks :: toString row.index ::
    match row.rung with
    | none => ["", "", "END", "", ""]
    | some rung =>
      [rung.position.text, "\"" ++ rung.name ++ "\"", rung.cell.kindName,
        contents vars rung.cell, rung.element.name]

end TapeRow

/-- The table of the tape. -/
def tapeTable (scene : Snapshot) : Table where
  columns :=
    [{ title := "Cursors", right := true }, { title := "Index", right := true },
     { title := "Position" }, { title := "Text" }, { title := "Kind" }, { title := "Contents" },
     { title := "Element" }]
  rows := (TapeRow.ofSnapshot scene).map (TapeRow.cells scene.vars)

/-- A row of the variables: a variable, or a rung of its block below it. -/
inductive VariableRow where
  | binding (name : String) (v : Variable)
  | blockRung (executing : Bool) (index : Nat) (rung : Rung)

namespace VariableRow

/-- The rows of a variable.  The rungs of a block follow it, the last first. -/
def ofVariable (frame : Option Frame) (name : String) (v : Variable) : List VariableRow :=
  let rungs := (v.block?.getD []).mapIdx fun i rung =>
    VariableRow.blockRung (frame == some ⟨name, i⟩) i rung
  .binding name v :: rungs.reverse

/-- The rows of all variables, in the order of their names. -/
def ofVariables (vars : Variables) (frame : Option Frame) : List VariableRow :=
  vars.toList.flatMap fun (name, v) => ofVariable frame name v

/-- The cells of a row.  The rung being executed is marked. -/
def cells : VariableRow → List String
  | .binding name v =>
    let binding :=
      match v.binding with
      | .value value => "VALUE " ++ Numeric.general value
      | .block rungs => "BLOCK of " ++ toString rungs.length
    [name, binding, v.element.name]
  | .blockRung executing index rung =>
    [(if executing then "* --> " else "") ++ toString index, rung.display, ""]

end VariableRow

/-- The table of the variables. -/
def variableTable (vars : Variables) (frame : Option Frame) : Table where
  columns := [{ title := "Name", right := true }, { title := "Binding" }, { title := "Element" }]
  rows := (VariableRow.ofVariables vars frame).map VariableRow.cells

/-- What a trace consists of. -/
inductive TraceRecord where
  /-- The machine before a rung is executed. -/
  | execution (step : Nat) (frame : Option Frame) (scene : Snapshot)
  /-- A text that is printed. -/
  | output (text : String)
  /-- The machine at the end of a run. -/
  | termination (scene : Snapshot)

namespace TraceRecord

/-- The line around the headings of a dump. -/
def rule : String :=
  String.ofList (List.replicate 60 '-')

/-- A heading between two lines. -/
def heading (title : String) : String :=
  "\n" ++ rule ++ "\n" ++ title ++ ":\n" ++ rule ++ "\n"

/-- The two tables of a dump under their headings. -/
def dump (title variablesTitle : String) (frame : Option Frame) (scene : Snapshot) : String :=
  heading title ++ (tapeTable scene).render ++
    heading variablesTitle ++ (variableTable scene.vars frame).render

/-- The number of an execution, with the variable whose block is being executed. -/
def label (step : Nat) (frame : Option Frame) : String :=
  match frame with
  | none => toString step
  | some frame => toString step ++ ", Execution of \"" ++ frame.name ++ "\""

/-- The text of a record. -/
def text : TraceRecord → String
  | .execution step frame scene =>
    let label := label step frame
    dump ("Execution " ++ label) ("Variables at execution " ++ label) frame scene
  | .output text => "\nOutput: \"" ++ text ++ "\"\n"
  | .termination scene => dump "Termination" "Variables at termination" none scene ++ "\n"

end TraceRecord

end Verse
