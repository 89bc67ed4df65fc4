import Verse.Machine.Dispatch

/-!
# Running a program

A step executes the rung under the bureaucrat and moves the bureaucrat past it, unless the
rung has moved it already.  A punctuation mark captures a block into a variable, and
executing the variable executes the block, on the machine's own cursors.

Blocks can call each other without end, and programs can loop.  Both are bounded by fuel: a
result of `none` means that the fuel was not enough, and never that a program did something
wrong.
-/

namespace Verse.Machine

/-- Capture a block.  The rung after the bureaucrat names it, and it takes the rungs from
    there to the next punctuation mark or to the name said again, whichever comes first.
    The bureaucrat is left there. -/
def capture (m : Machine) : Signal × Machine :=
  let start := m.bureaucrat + 1
  match m.tape[start]? with
  | none => (.proceed, m.notice .lastPunctuation)
  | some name =>
    -- Neither the name nor the rung that ends the block belongs to it.
    let rest := m.tape.drop (start + 1)
    let block := rest.takeWhile fun rung => !rung.endsBlockOf name
    if block.length < rest.length then
      let m := { m with bureaucrat := start + 1 + block.length }
      match name.variableName? with
      | some variableName =>
        (.proceed, { m with vars := m.vars.bind variableName block name.element })
      | none => (.proceed, m.notice (.namelessBlock name.name))
    else m.fail .endlessBlock

/-- Note that a rung is executed. -/
def begin (m : Machine) (frame : Option Frame) (rung : Rung) : Machine :=
  { m.record (.executed m.steps frame rung m.toSnapshot) with steps := m.steps + 1 }

/-- Execute the rungs of a block in turn, as long as the run goes on.  The first of them has
    the given index. -/
def perform (execute : Option Frame → Rung → Machine → Option (Signal × Machine)) (name : String) :
    Nat → List Rung → Machine → Option (Signal × Machine)
  | _, [], m => some (.proceed, m)
  | index, rung :: rest, m =>
    match execute (some ⟨name, index⟩) rung m with
    | some (.proceed, m) => perform execute name (index + 1) rest m
    | other => other

/-- Execute a rung.  Blocks may be nested `depth` deep. -/
def execute (depth : Nat) (frame : Option Frame) (rung : Rung) (m : Machine) :
    Option (Signal × Machine) :=
  let m := m.begin frame rung
  match rung.cell with
  | .literal _ => some (.proceed, m)
  | .command command => some (m.dispatch command)
  | .invalid code => some (.proceed, m.notice (.invalidCommand rung.name code))
  | .punctuation => some m.capture
  | .variable name =>
    match m.vars.block? name, depth with
    | none, _ => some (.proceed, m)
    | some _, 0 => none
    | some block, depth + 1 => perform (execute depth) name 0 block m

/-- Execute the rung under the bureaucrat and move past it, unless the run ends or the rung
    has moved the bureaucrat. -/
def step (depth : Nat) (m : Machine) : Option (Signal × Machine) :=
  match m.tape[m.bureaucrat]? with
  | none => some (.stop .ranOffEnd, m)
  | some rung =>
    (execute depth none rung { m with moved := false }).map fun (signal, m) =>
      match signal with
      | .stop reason => (.stop reason, m)
      | .proceed =>
        (.proceed, if m.moved then m else { m with bureaucrat := m.bureaucrat + 1 })

/-- Take steps until the run ends, at most `limit` of them. -/
def loop (depth : Nat) : Nat → Machine → Option (StopReason × Machine)
  | 0, _ => none
  | limit + 1, m =>
    match m.step depth with
    | none => none
    | some (.stop reason, m) => some (reason, m)
    | some (.proceed, m) => loop depth limit m

/-- The machine at the start of a run of a program: only the generator and the input are
    kept. -/
def start (m : Machine) (program : List Rung) : Machine :=
  { tape := program, generator := m.generator, input := m.input }

/-- Run a program from its start.  The fuel bounds both the steps and the nesting of
    blocks. -/
def run (fuel : Nat) (m : Machine) (program : List Rung) : Option (StopReason × Machine) :=
  (m.start program).loop fuel fuel

end Verse.Machine
