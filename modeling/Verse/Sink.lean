/-!
# Sinks

A sink takes texts one by one, until it is full.  Flushing it at the end may fail too.
-/

namespace Verse

/-- Why a sink refuses. -/
inductive SinkFault where
  /-- There is no room for another text. -/
  | full
  /-- What was written cannot be passed on. -/
  | unflushed
deriving DecidableEq

/-- The text of a fault. -/
def SinkFault.message : SinkFault → String
  | .full => "sink full"
  | .unflushed => "flush failed"

/-- The report of an error in reading or writing. -/
def ioReport (reason : String) : String :=
  "i/o error: " ++ reason

/-- A receiver of texts. -/
structure Sink where
  /-- How many more texts there is room for; any number if absent. -/
  room : Option Nat := none
  /-- Whether flushing succeeds. -/
  flushes : Bool := true
  /-- The texts that have been received, the latest first. -/
  received : List String := []
deriving DecidableEq

namespace Sink

/-- Write a text.  An empty text takes no room. -/
def write (sink : Sink) (text : String) : Except SinkFault Sink :=
  if text.isEmpty then .ok sink
  else
    match sink.room with
    | some 0 => .error .full
    | some (room + 1) => .ok { sink with room := some room, received := text :: sink.received }
    | none => .ok { sink with received := text :: sink.received }

/-- Write texts up to the first one that is refused. -/
def writeAll (sink : Sink) : List String → Except SinkFault Sink
  | [] => .ok sink
  | text :: rest => (sink.write text).bind (·.writeAll rest)

/-- Pass on what has been written. -/
def flush? (sink : Sink) : Option SinkFault :=
  if sink.flushes then none else some .unflushed

/-- All that has been received. -/
def text (sink : Sink) : String :=
  String.join sink.received.reverse

end Sink

end Verse
