/-!
# Trace modes

A trace is off, shows the rungs of the tape, or shows the rungs of captured blocks too.
-/

namespace Verse

/-- How much of a run is traced. -/
inductive TraceMode where
  | off
  /-- The rungs of the tape only. -/
  | topLevel
  /-- The rungs of captured blocks too. -/
  | everything
deriving DecidableEq

namespace TraceMode

/-- Every mode, in the order of `next`. -/
def all : List TraceMode := [.off, .topLevel, .everything]

/-- The name of a mode. -/
def name : TraceMode → String
  | .off => "off"
  | .topLevel => "top"
  | .everything => "all"

/-- The mode of a name. -/
def ofName? (name : String) : Option TraceMode :=
  all.find? (·.name == name)

/-- The mode that a toggle switches to. -/
def next : TraceMode → TraceMode
  | .off => .topLevel
  | .topLevel => .everything
  | .everything => .off

/-- Whether there is a trace at all. -/
def isOn (mode : TraceMode) : Bool :=
  mode != .off

/-- Whether a rung is traced. -/
def records (mode : TraceMode) (inBlock : Bool) : Bool :=
  match mode with
  | .off => false
  | .topLevel => !inBlock
  | .everything => true

end TraceMode

end Verse
