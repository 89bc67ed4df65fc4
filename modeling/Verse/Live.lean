import Verse.Machine.Run
import Verse.Recorder

/-!
# Running a program for others to see

A live machine has a recorder that is told of every event at the moment it happens.  The
rung about to be executed is in the trace before it is executed, a text is in the output
before the next rung is, and a remark is in the log before the command that makes it has
come to its end.  No journal is kept.

The commands are those of the machine alone.  Those that have something to tell are spelled
out here once more, with what they tell where they tell it; the others are taken over.
-/

namespace Verse

/-- A machine and what listens to it. -/
structure Live where
  machine : Machine
  recorder : Recorder

namespace Live

open Numeric (offset reverse saturate isOddOffset)

/-- Tell the recorder of an event. -/
def tell (l : Live) (event : Event) : Live :=
  { l with recorder := l.recorder.observe event }

/-- Remark on something. -/
def notice (l : Live) (notice : Notice) : Live :=
  l.tell (.noticed notice)

/-- Change the machine in a way that there is nothing to tell of. -/
def edit (l : Live) (change : Machine → Machine) : Live :=
  { l with machine := change l.machine }

/-- The number that the rung at an index stands for. -/
def readAt (l : Live) (index : Nat) : Option Float × Live :=
  let (value, machine) := l.machine.readAt index
  (value, { l with machine })

/-! ## The cursors -/

/-- Put the bureaucrat behind the last rung and give up. -/
def fail (l : Live) (fault : Fault) : Signal × Live :=
  let l := l.edit fun m =>
    { m with bureaucrat := m.tape.length, delegate := min m.delegate m.tape.length }
  (.stop .fatal, l.tell (.failed fault))

/-- Move the bureaucrat, and pull the delegate down with it. -/
def march (l : Live) (how : March) (k : Int) : Signal × Live :=
  let l := l.edit ({ · with moved := true })
  let target := saturate (l.machine.bureaucrat + k)
  if l.machine.tape.length ≤ target then l.fail (.marchedPast how)
  else
    let l := if target < 0 then l.notice (.marchedBelow how) else l
    let bureaucrat := target.toNat
    (.proceed, l.edit fun m => { m with bureaucrat, delegate := min m.delegate bureaucrat })

/-- Move the bureaucrat forward by the number at the delegate. -/
def promote (l : Live) : Signal × Live :=
  match l.readAt l.machine.delegate with
  | (none, l) => (.proceed, l)
  | (some value, l) =>
    if value == 0.0 then (.proceed, l)
    else
      let l := if value < 0.0 then l.notice (.marchedNegative .promoted value) else l
      l.march .promoted (offset value)

/-- Move the bureaucrat back by the number at the delegate. -/
def demote (l : Live) : Signal × Live :=
  match l.readAt l.machine.delegate with
  | (none, l) => (.proceed, l)
  | (some value, l) =>
    if value == 0.0 then (.proceed, l)
    else
      let l := if value < 0.0 then l.notice (.marchedNegative .demoted value) else l
      l.march .demoted (reverse (offset value))

/-- Move the bureaucrat by the number at the delegate, forward if it is odd and back if it
    is even. -/
def blossom (l : Live) : Signal × Live :=
  match l.readAt l.machine.delegate with
  | (none, l) => (.proceed, l)
  | (some value, l) =>
    let k := offset value
    if k = 0 then (.proceed, l)
    else l.march .blossomed (if isOddOffset k then k else reverse k)

/-- How far the delegate is to move: by the number just before the bureaucrat, or by one. -/
def driftOffset (l : Live) : Int × Live :=
  let (k, machine) := l.machine.driftOffset
  (k, { l with machine })

/-- Move the delegate, no further than the start of the tape and the bureaucrat. -/
def drift (l : Live) (how : Drift) (k : Int) : Live :=
  let l := if k < 0 then l.notice (.driftedNegative how k) else l
  let target := saturate (l.machine.delegate + k)
  if target < 0 then (l.notice (.driftedBelow how)).edit ({ · with delegate := 0 })
  else if l.machine.bureaucrat < target then
    (l.notice (.driftedAbove how)).edit fun m => { m with delegate := m.bureaucrat }
  else l.edit ({ · with delegate := target.toNat })

/-- Move the delegate up. -/
def rise (l : Live) : Live :=
  let (k, l) := l.driftOffset
  l.drift .rose k

/-- Move the delegate down. -/
def fall (l : Live) : Live :=
  let (k, l) := l.driftOffset
  l.drift .fell (reverse k)

/-! ## Input and output -/

/-- Read a value from the input onto the front of the tape.  Once the input is exhausted,
    the rung after the bureaucrat goes to the front instead. -/
def listen (l : Live) : Live :=
  let l := if l.machine.input.isGarbled then l.notice .garbledInput else l
  let (event, input) := l.machine.input.read
  let l := l.edit ({ · with input })
  match event with
  | some event =>
    let rung : Rung :=
      { position := .input l.machine.inputEvents, name := event.text, element := .earth,
        cell := .literal event.value }
    (l.tell (.heard event)).edit fun m =>
      { m.insert rung 0 with inputEvents := m.inputEvents + 1 }
  | none =>
    match l.machine.erase? (l.machine.bureaucrat + 1) with
    | some (rung, machine) => { l with machine := machine.insert rung 0 }
    | none => l

/-- Print a text. -/
def emit (l : Live) (text : String) : Live :=
  l.tell (.printed text)

/-- Print the character whose code is the operand. -/
def speak (l : Live) : Live :=
  match l.readAt l.machine.delegate with
  | (none, l) => l
  | (some value, l) =>
    let code := offset value
    match Machine.character? code with
    | some c => l.emit (String.singleton c)
    | none => l.notice (.noCharacter code)

/-- Print the operand. -/
def count (l : Live) : Live :=
  match l.readAt l.machine.delegate with
  | (none, l) => l
  | (some value, l) => l.emit (Numeric.general value)

/-! ## Values -/

/-- Combine the operand with the number after it. -/
def operate (l : Live) : Live :=
  let index := l.machine.delegate
  if l.machine.tape.length ≤ index + 1 then l.notice .lastOperand
  else
    match l.readAt index with
    | (none, l) => l
    | (some b, l) =>
      match l.readAt (index + 1) with
      | (none, l) => l
      | (some a, l) =>
        let elementB := l.machine.elementAt index
        let elementA := l.machine.elementAt (index + 1)
        if elementB = elementA then
          l.edit (·.assignAt index ((Polarity.of a).both (Polarity.of b)).value none)
        else
          match Relation.between elementB elementA with
          | some .create => l.edit (·.assignAt index (a + b) (some elementA))
          | some .destroy => l.edit (·.assignAt index (a - b) none)
          | some .fear => l.edit (·.assignAt index (a / b) none)
          | some .love => l.edit (·.assignAt index (a * b) none)
          | none => l.notice (.unrelated elementB elementA)

/-! ## Rungs -/

/-- Execute a command. -/
def dispatch (l : Live) (command : Command) : Signal × Live :=
  match command with
  | .few | .many | .tomorrow => (.proceed, l)
  | .heaven => (.stop .halted, l)
  | .promote => l.promote
  | .demote => l.demote
  | .blossom => l.blossom
  | .rise => (.proceed, l.rise)
  | .fall => (.proceed, l.fall)
  | .listen => (.proceed, l.listen)
  | .speak => (.proceed, l.speak)
  | .count => (.proceed, l.count)
  | .create | .destroy | .fear | .love =>
    match command.relation? with
    | some relation => (.proceed, l.edit (·.advanceOperand relation))
    | none => (.proceed, l)
  | .become => (.proceed, l.edit Machine.become)
  | .like => (.proceed, l.edit Machine.like)
  | .negative => (.proceed, l.edit Machine.negative)
  | .operate => (.proceed, l.operate)

/-- Capture a block, up to the next punctuation mark or to its name said again. -/
def capture (l : Live) : Signal × Live :=
  let start := l.machine.bureaucrat + 1
  match l.machine.tape[start]? with
  | none => (.proceed, l.notice .lastPunctuation)
  | some name =>
    let rest := l.machine.tape.drop (start + 1)
    let block := rest.takeWhile fun rung => !rung.endsBlockOf name
    if block.length < rest.length then
      let l := l.edit ({ · with bureaucrat := start + 1 + block.length })
      match name.variableName? with
      | some variableName =>
        (.proceed,
          l.edit fun m => { m with vars := m.vars.bind variableName block name.element })
      | none => (.proceed, l.notice (.namelessBlock name.name))
    else l.fail .endlessBlock

/-- Note that a rung is executed.  The trace is written before the rung is counted. -/
def begin (l : Live) (frame : Option Frame) (rung : Rung) : Live :=
  (l.tell (.executed l.machine.steps frame rung l.machine.toSnapshot)).edit fun m =>
    { m with steps := m.steps + 1 }

/-- Execute the rungs of a block in turn, as long as the run goes on. -/
def perform (execute : Option Frame → Rung → Live → Option (Signal × Live)) (name : String) :
    Nat → List Rung → Live → Option (Signal × Live)
  | _, [], l => some (.proceed, l)
  | index, rung :: rest, l =>
    match execute (some ⟨name, index⟩) rung l with
    | some (.proceed, l) => perform execute name (index + 1) rest l
    | other => other

/-- Execute a rung.  Blocks may be nested `depth` deep. -/
def execute (depth : Nat) (frame : Option Frame) (rung : Rung) (l : Live) :
    Option (Signal × Live) :=
  let l := l.begin frame rung
  match rung.cell with
  | .literal _ => some (.proceed, l)
  | .command command => some (l.dispatch command)
  | .invalid code => some (.proceed, l.notice (.invalidCommand rung.name code))
  | .punctuation => some l.capture
  | .variable name =>
    match l.machine.vars.block? name, depth with
    | none, _ => some (.proceed, l)
    | some _, 0 => none
    | some block, depth + 1 => perform (execute depth) name 0 block l

/-! ## Runs -/

/-- Execute the rung under the bureaucrat and move past it, unless the run ends or the rung
    has moved the bureaucrat. -/
def step (depth : Nat) (l : Live) : Option (Signal × Live) :=
  match l.machine.tape[l.machine.bureaucrat]? with
  | none => some (.stop .ranOffEnd, l)
  | some rung =>
    (execute depth none rung (l.edit ({ · with moved := false }))).map fun (signal, l) =>
      match signal with
      | .stop reason => (.stop reason, l)
      | .proceed =>
        (.proceed,
          if l.machine.moved then l
          else l.edit fun m => { m with bureaucrat := m.bureaucrat + 1 })

/-- Take steps until the run ends, at most `limit` of them. -/
def loop (depth : Nat) : Nat → Live → Option (StopReason × Live)
  | 0, _ => none
  | limit + 1, l =>
    match l.step depth with
    | none => none
    | some (.stop reason, l) => some (reason, l)
    | some (.proceed, l) => loop depth limit l

/-- Run a program from its start. -/
def run (fuel : Nat) (l : Live) (program : List Rung) : Option (StopReason × Live) :=
  (l.edit (·.start program)).loop fuel fuel

end Live

end Verse
