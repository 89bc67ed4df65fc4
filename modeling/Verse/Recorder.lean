import Verse.Diagnostic
import Verse.Machine.Event
import Verse.Sink
import Verse.Token.Reading
import Verse.Trace.Mode
import Verse.Trace.Record

/-!
# Observing a run

A recorder is told of every event of a run.  It passes printed texts on to the output,
writes the trace, and keeps the log.  Nothing flows back: a full output only loses texts,
and a trace whose sink fails once is given up.
-/

namespace Verse

/-- A line of the log. -/
inductive LogEntry where
  | notice (notice : Notice)
  | fault (fault : Fault)
  | strayDigit (stray : StrayDigit)
  | diagnostic (diagnostic : Diagnostic)
  | lostOutput (fault : SinkFault)
  | lostTrace (fault : SinkFault)
  | unflushedOutput (fault : SinkFault)
  | unflushedTrace (fault : SinkFault)
  /-- A run ended because the machine had to give up. -/
  | stoppedEarly (steps : Nat)
deriving DecidableEq

namespace LogEntry

/-- Whether an entry reports that the machine gave up. -/
def isError : LogEntry → Bool
  | .fault _ => true
  | _ => false

/-- The text of an entry. -/
def message : LogEntry → String
  | .notice n => n.message
  | .fault f => f.message
  | .strayDigit s => s.message
  | .diagnostic d => d.message
  | .lostOutput f => "could not write program output: " ++ f.message
  | .lostTrace f => "execution trace disabled after a write failure: " ++ f.message
  | .unflushedOutput f => "could not flush program output: " ++ f.message
  | .unflushedTrace f => "could not flush the execution trace: " ++ f.message
  | .stoppedEarly steps => "the program stopped early after " ++ toString steps ++ " steps"

/-- The text of an entry with its severity. -/
def text (entry : LogEntry) : String :=
  (if entry.isError then "error: " else "warn: ") ++ entry.message

end LogEntry

/-- The execution trace of a run. -/
inductive Tracer where
  /-- There is none. -/
  | off
  /-- Records are written to the sink. -/
  | writing (mode : TraceMode) (sink : Sink)
  /-- The sink has refused a record, and no more are written. -/
  | givenUp (sink : Sink)

namespace Tracer

/-- The tracer of a run, if tracing is on and there is a sink for it. -/
def ofSink (mode : TraceMode) (sink : Option Sink) : Tracer :=
  match sink with
  | some sink => if mode.isOn then .writing mode sink else .off
  | none => .off

/-- The sink with all that it has received. -/
def sink? : Tracer → Option Sink
  | .off => none
  | .writing _ sink => some sink
  | .givenUp sink => some sink

/-- Write a record.  The fault of a sink that refuses it is handed back. -/
def write (tracer : Tracer) (record : TraceRecord) : Tracer × Option SinkFault :=
  match tracer with
  | .writing mode sink =>
    match sink.write record.text with
    | .ok sink => (.writing mode sink, none)
    | .error fault => (.givenUp sink, some fault)
  | other => (other, none)

/-- The fault of a sink that cannot be flushed. -/
def flush? : Tracer → Option SinkFault
  | .writing _ sink => sink.flush?
  | _ => none

/-- Whether a rung is traced. -/
def wants (tracer : Tracer) (frame : Option Frame) : Bool :=
  match tracer with
  | .writing mode _ => mode.records frame.isSome
  | _ => false

end Tracer

/-- What listens to a run: the output, the trace, and the log with its latest entry
    first. -/
structure Recorder where
  output : Sink
  tracer : Tracer := .off
  log : List LogEntry := []

namespace Recorder

/-- Add an entry to the log. -/
def note (r : Recorder) (entry : LogEntry) : Recorder :=
  { r with log := entry :: r.log }

/-- Write a record of the trace. -/
def trace (r : Recorder) (record : TraceRecord) : Recorder :=
  match r.tracer.write record with
  | (tracer, none) => { r with tracer }
  | (tracer, some fault) => { r with tracer }.note (.lostTrace fault)

/-- Print a text. -/
def print (r : Recorder) (text : String) : Recorder :=
  match r.output.write text with
  | .ok output => { r with output }
  | .error fault => r.note (.lostOutput fault)

/-- Take note of an event. -/
def observe (r : Recorder) : Event → Recorder
  | .executed step frame _ scene =>
    if r.tracer.wants frame then r.trace (.execution step frame scene) else r
  -- The trace shows a text even if the output has lost it.
  | .printed text => (r.print text).trace (.output text)
  | .heard _ => r
  | .noticed notice => r.note (.notice notice)
  | .failed fault => r.note (.fault fault)

/-- Take note of the events of a journal, the latest of which comes first. -/
def observeAll (r : Recorder) (journal : List Event) : Recorder :=
  journal.foldr (fun event r => r.observe event) r

/-- Flush the output at the end of a run. -/
def flushOutput (r : Recorder) : Recorder :=
  match r.output.flush? with
  | none => r
  | some fault => r.note (.unflushedOutput fault)

/-- Flush the trace at the end of a run. -/
def flushTrace (r : Recorder) : Recorder :=
  match r.tracer.flush? with
  | none => r
  | some fault => r.note (.unflushedTrace fault)

/-- Close the output and the trace at the end of a run. -/
def finish (r : Recorder) (scene : Snapshot) : Recorder :=
  (r.flushOutput.trace (.termination scene)).flushTrace

end Recorder

end Verse
