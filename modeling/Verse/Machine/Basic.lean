import Verse.Generator
import Verse.Machine.Event

/-!
# The machine

The tape is a list of rungs, read from index zero upwards.  The *bureaucrat* is the
instruction pointer; the *delegate* stays at or behind it and points at the operand that
most commands read.  At every point of a run `delegate ≤ bureaucrat ≤ tape.length`.

* `Machine.insert`, `Machine.erase`   change the tape and keep the cursors on their rungs
* `Machine.readAt`                    the number that a rung stands for
* `Machine.assignAt`                  write a number to a rung
-/

namespace Verse

/-- The state of a run, with the journal of what has happened in it, the latest event
    first. -/
structure Machine extends Snapshot where
  /-- Whether the rung being executed has moved the bureaucrat itself. -/
  moved : Bool := false
  /-- How many rungs have been executed. -/
  steps : Nat := 0
  /-- How many values have been read from the input. -/
  inputEvents : Nat := 0
  generator : Generator
  input : Input := .empty
  journal : List Event := []

namespace Machine

/-- Write an event into the journal. -/
def record (m : Machine) (event : Event) : Machine :=
  { m with journal := event :: m.journal }

/-- Remark on something. -/
def notice (m : Machine) (notice : Notice) : Machine :=
  m.record (.noticed notice)

/-! ## The tape -/

/-- Put a rung before the one at an index.  The cursors stay on the rungs they point at. -/
def insert (m : Machine) (rung : Rung) (index : Nat) : Machine :=
  { m with
    tape := m.tape.insertIdx index rung
    bureaucrat := if index ≤ m.bureaucrat then m.bureaucrat + 1 else m.bureaucrat
    delegate := if index ≤ m.delegate then m.delegate + 1 else m.delegate }

/-- Put a rung before the one at an index, or at the end.  There is no place beyond that. -/
def insert? (m : Machine) (rung : Rung) (index : Nat) : Option Machine :=
  if index ≤ m.tape.length then some (m.insert rung index) else none

/-- Take out the rung at an index.  The cursors stay on the rungs they point at. -/
def erase (m : Machine) (index : Nat) : Machine :=
  { m with
    tape := m.tape.eraseIdx index
    bureaucrat := if index < m.bureaucrat then m.bureaucrat - 1 else m.bureaucrat
    delegate := if index < m.delegate then m.delegate - 1 else m.delegate }

/-- Take out the rung at an index, if there is one, and hand it over. -/
def erase? (m : Machine) (index : Nat) : Option (Rung × Machine) :=
  m.tape[index]?.map fun rung => (rung, m.erase index)

/-- Change the rung at an index, if there is one. -/
def modify (m : Machine) (index : Nat) (change : Rung → Rung) : Machine :=
  { m with tape := m.tape.modify index change }

/-! ## Operands -/

/-- The number that a cell stands for, if it has one.  `Few` and `Many` draw a new one each
    time. -/
def read (m : Machine) (cell : Cell) : Option Float × Machine :=
  match cell with
  | .literal value => (some value, m)
  | .variable name => (m.vars.value? name, m)
  | .command command =>
    match command.range? with
    | some (low, high) =>
      let (n, generator) := m.generator.draw low high
      (some (Float.ofNat n), { m with generator })
    | none => (none, m)
  | .invalid _ => (none, m)
  | .punctuation => (none, m)

/-- The number that the rung at an index stands for. -/
def readAt (m : Machine) (index : Nat) : Option Float × Machine :=
  match m.tape[index]? with
  | some rung => m.read rung.cell
  | none => (none, m)

/-- The element of the rung at an index: that of its variable once there is such a variable,
    else its own. -/
def elementAt (m : Machine) (index : Nat) : Element :=
  match m.tape[index]? with
  | none => .void
  | some rung =>
    match rung.variableName?.bind m.vars.get? with
    | some v => v.element
    | none => rung.element

/-- Store a number in a literal. -/
def setLiteral (value : Float) (rung : Rung) : Rung :=
  match rung.cell with
  | .literal _ => { rung with cell := .literal value }
  | _ => rung

/-- Write a number to the rung at an index.  A variable stores it, a literal becomes it, and
    any other rung stays as it is.  `source` is an element that the number brings along to a
    variable. -/
def assignAt (m : Machine) (index : Nat) (value : Float) (source : Option Element) : Machine :=
  match m.tape[index]? with
  | none => m
  | some rung =>
    match rung.cell with
    | .variable name => { m with vars := m.vars.assign name value source }
    | .literal _ => m.modify index (setLiteral value)
    | _ => m

/-- Advance the element of the rung at an index.  A variable advances its own, a literal
    that of the rung. -/
def advanceAt (m : Machine) (index : Nat) (relation : Relation) : Machine :=
  match m.tape[index]? with
  | none => m
  | some rung =>
    match rung.cell with
    | .variable name => { m with vars := m.vars.advance name relation }
    | .literal _ =>
      m.modify index fun rung => { rung with element := rung.element.advance relation }
    | _ => m

end Machine

end Verse
