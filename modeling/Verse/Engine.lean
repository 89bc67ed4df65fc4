import Verse.Live

/-!
# The engine

An engine holds a loaded program, the machine that runs it, and where the output and the
trace go.  The program can be run any number of times; every run starts from the program as
it was loaded, while the generator, the input and the output go on from run to run.
-/

namespace Verse

/-- A machine with a program, an output and a trace. -/
structure Engine where
  /-- The tape as loaded. -/
  program : Option (List Rung) := none
  machine : Machine
  mode : TraceMode := .off
  output : Sink := {}
  /-- Where the next run writes its trace. -/
  traceSink : Option Sink := none

/-- How a run ended. -/
structure Outcome where
  /-- How many rungs were executed, those of blocks included. -/
  steps : Nat
  reason : StopReason
deriving DecidableEq

/-- What can be said about a run once it has ended. -/
structure RunReport where
  outcome : Outcome
  /-- The log, in the order of the events. -/
  log : List LogEntry
  /-- The sink of the trace, if there was a trace. -/
  trace : Option Sink

namespace Engine

/-- An engine without a program. -/
def ofSeed (seed : UInt64) : Engine :=
  { machine := { generator := .ofSeed seed } }

/-- Load rungs in the order of the program text.  The tape has the last of them first.  The
    cursors stay where they are until the program is run. -/
def loadRungs (e : Engine) (rungs : List Rung) : Engine :=
  let tape := rungs.reverse
  { e with program := some tape, machine := { e.machine with tape, vars := .empty } }

/-- Load tokens in the order of the program text. -/
def load (e : Engine) (lexicon : Lexicon) (tokens : List Token) : Engine :=
  e.loadRungs (tokens.map (Rung.ofToken lexicon))

/-- Switch to the next trace mode. -/
def toggleTrace (e : Engine) : Engine :=
  { e with mode := e.mode.next }

/-- Set where the next run writes its trace. -/
def setTraceSink (e : Engine) (sink : Sink) : Engine :=
  { e with traceSink := some sink }

/-- Set the input of the runs to come. -/
def setInput (e : Engine) (input : Input) : Engine :=
  { e with machine := { e.machine with input } }

/-- Put a rung into the tape. -/
def insert? (e : Engine) (rung : Rung) (index : Nat) : Option Engine :=
  (e.machine.insert? rung index).map fun machine => { e with machine }

/-- Take a rung out of the tape. -/
def erase? (e : Engine) (index : Nat) : Option (Rung × Engine) :=
  (e.machine.erase? index).map fun (rung, machine) => (rung, { e with machine })

/-- Find out whether a value is left to be read. -/
def isExhausted (e : Engine) : Bool × List LogEntry × Engine :=
  let input := e.machine.input
  let log := if input.isGarbled then [.notice .garbledInput] else []
  (input.isExhausted, log, e.setInput input.advance)

/-- What listens to the next run. -/
def recorder (e : Engine) : Recorder :=
  { output := e.output, tracer := .ofSink e.mode e.traceSink }

/-- Run a program.  The sink of the trace is used up, whether tracing is on or not. -/
def runProgram (e : Engine) (fuel : Nat) (program : List Rung) : Option (RunReport × Engine) :=
  let live : Live := { machine := e.machine, recorder := e.recorder }
  (live.run fuel program).map fun (reason, l) =>
    let recorder := l.recorder.finish l.machine.toSnapshot
    ({ outcome := { steps := l.machine.steps, reason }
       log := recorder.log.reverse
       trace := recorder.tracer.sink? },
     { e with
       machine := l.machine
       output := recorder.output
       traceSink := none })

/-- What becomes of an attempt to run. -/
inductive Attempt where
  /-- No program has been loaded. -/
  | noProgram
  /-- The fuel was not enough. -/
  | unfinished
  | finished (report : RunReport) (engine : Engine)

/-- Run the loaded program from its start. -/
def run (e : Engine) (fuel : Nat) : Attempt :=
  match e.program with
  | none => .noProgram
  | some program =>
    match e.runProgram fuel program with
    | none => .unfinished
    | some (report, engine) => .finished report engine

end Engine

end Verse
