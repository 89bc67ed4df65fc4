import Verse.Machine.Cursor

/-!
# The twenty commands, executed

Every command finds its operand through the delegate, and a command whose operand has no
number does nothing.  `Machine.dispatch` executes a command; only `Heaven` and the moves of
the bureaucrat can end the run.
-/

namespace Verse.Machine

open Numeric (offset roundAway)

/-! ## Input and output -/

/-- Read a value from the input onto the front of the tape.  Once the input is exhausted,
    the rung after the bureaucrat goes to the front instead. -/
def listen (m : Machine) : Machine :=
  let m := if m.input.isGarbled then m.notice .garbledInput else m
  let (event, input) := m.input.read
  let m := { m with input }
  match event with
  | some event =>
    let rung : Rung :=
      { position := .input m.inputEvents, name := event.text, element := .earth,
        cell := .literal event.value }
    let m := (m.record (.heard event)).insert rung 0
    { m with inputEvents := m.inputEvents + 1 }
  | none =>
    match m.erase? (m.bureaucrat + 1) with
    | some (rung, m) => m.insert rung 0
    | none => m

/-- The character of a code. -/
def character? (code : Int) : Option Char :=
  if 0 ≤ code ∧ code.toNat.isValidChar then some (Char.ofNat code.toNat) else none

/-- Print the character whose code is the operand. -/
def speak (m : Machine) : Machine :=
  match m.readAt m.delegate with
  | (none, m) => m
  | (some value, m) =>
    let code := offset value
    match character? code with
    | some c => m.record (.printed (String.singleton c))
    | none => m.notice (.noCharacter code)

/-- Print the operand. -/
def count (m : Machine) : Machine :=
  match m.readAt m.delegate with
  | (none, m) => m
  | (some value, m) => m.record (.printed (Numeric.general value))

/-! ## Values -/

/-- Advance the element of the operand. -/
def advanceOperand (m : Machine) (relation : Relation) : Machine :=
  match m.readAt m.delegate with
  | (none, m) => m
  | (some _, m) => m.advanceAt m.delegate relation

/-- The next whole number away from zero.  A number that is already whole moves by one. -/
def grow (value : Float) : Float :=
  let rounded := roundAway value
  if rounded == value then
    if value < 0.0 then value - 1.0 else value + 1.0
  else rounded

/-- The rung that a zero turns into. -/
def toHeaven (rung : Rung) : Rung :=
  { rung with cell := .command .heaven, element := .earth }

/-- Turn a zero into `Heaven`, and make any other number grow.  A variable that grows also
    advances its element along `create`. -/
def become (m : Machine) : Machine :=
  let index := m.delegate
  match m.readAt index with
  | (none, m) => m
  | (some value, m) =>
    if value == 0.0 then m.modify index toHeaven
    else
      -- `Few` and `Many` have a number as well, but nothing can be stored in them.
      let grown := m.assignAt index (grow value) none
      match (m.tape[index]?).bind Rung.variableName? with
      | some _ => grown.advanceAt index .create
      | none => grown

/-- The first number found going down from an index, with its own index. -/
def findBelow (m : Machine) : Nat → Option (Nat × Float) × Machine
  | 0 =>
    match m.readAt 0 with
    | (some value, m) => (some (0, value), m)
    | (none, m) => (none, m)
  | index + 1 =>
    match m.readAt (index + 1) with
    | (some value, m) => (some (index + 1, value), m)
    | (none, m) => m.findBelow index

/-- Store in the variable just before the bureaucrat the first number found going down from
    the delegate, and leave the delegate on it.  If there is none, store zero. -/
def like (m : Machine) : Machine :=
  if m.bureaucrat = 0 then m
  else
    let target := m.bureaucrat - 1
    match (m.tape[target]?).bind Rung.variableName? with
    | none => m
    | some _ =>
      match m.findBelow m.delegate with
      | (some (index, value), m) => { m with delegate := index }.assignAt target value none
      | (none, m) => m.assignAt target 0.0 none

/-- Change the sign of the operand. -/
def negative (m : Machine) : Machine :=
  match m.readAt m.delegate with
  | (none, m) => m
  | (some value, m) => m.assignAt m.delegate (-value) none

/-- Combine the operand with the number after it.  The relation that leads from the element
    of the one to that of the other chooses the operation; two equal elements combine as
    polarities. -/
def operate (m : Machine) : Machine :=
  let index := m.delegate
  if m.tape.length ≤ index + 1 then m.notice .lastOperand
  else
    -- Reading can draw a number, so the order of the two counts.
    match m.readAt index with
    | (none, m) => m
    | (some b, m) =>
      match m.readAt (index + 1) with
      | (none, m) => m
      | (some a, m) =>
        let elementB := m.elementAt index
        let elementA := m.elementAt (index + 1)
        if elementB = elementA then
          m.assignAt index ((Polarity.of a).both (Polarity.of b)).value none
        else
          match Relation.between elementB elementA with
          | some .create => m.assignAt index (a + b) (some elementA)
          | some .destroy => m.assignAt index (a - b) none
          | some .fear => m.assignAt index (a / b) none
          | some .love => m.assignAt index (a * b) none
          | none => m.notice (.unrelated elementB elementA)

/-! ## All commands -/

/-- Execute a command. -/
def dispatch (m : Machine) (command : Command) : Signal × Machine :=
  match command with
  | .few | .many | .tomorrow => (.proceed, m)
  | .heaven => (.stop .halted, m)
  | .promote => m.promote
  | .demote => m.demote
  | .blossom => m.blossom
  | .rise => (.proceed, m.rise)
  | .fall => (.proceed, m.fall)
  | .listen => (.proceed, m.listen)
  | .speak => (.proceed, m.speak)
  | .count => (.proceed, m.count)
  | .create | .destroy | .fear | .love =>
    match command.relation? with
    | some relation => (.proceed, m.advanceOperand relation)
    | none => (.proceed, m)
  | .become => (.proceed, m.become)
  | .like => (.proceed, m.like)
  | .negative => (.proceed, m.negative)
  | .operate => (.proceed, m.operate)

end Verse.Machine
