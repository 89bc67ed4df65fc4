import Verse.Machine.Basic
import Verse.Numeric.Rounding

/-!
# Moving the cursors

`Promote`, `Demote` and `Blossom` move the bureaucrat by the number at the delegate; sent
past the end of the tape, it ends the run.  `Rise` and `Fall` move the delegate by the
number just before the bureaucrat, and keep it between the start of the tape and the
bureaucrat.
-/

namespace Verse

/-- Why a run ends. -/
inductive StopReason where
  /-- `Heaven` was reached. -/
  | halted
  /-- The bureaucrat walked off the end of the tape. -/
  | ranOffEnd
  /-- The machine had to give up. -/
  | fatal
deriving DecidableEq

/-- Whether the run goes on after a rung. -/
inductive Signal where
  | proceed
  | stop (reason : StopReason)
deriving DecidableEq

namespace Machine

open Numeric (offset reverse saturate isOddOffset)

/-- Put the bureaucrat behind the last rung and give up. -/
def fail (m : Machine) (fault : Fault) : Signal × Machine :=
  let m := { m with bureaucrat := m.tape.length, delegate := min m.delegate m.tape.length }
  (.stop .fatal, m.record (.failed fault))

/-- Move the bureaucrat.  Before the start of the tape it stops at the start.  The delegate
    is pulled down with it. -/
def march (m : Machine) (how : March) (k : Int) : Signal × Machine :=
  let m := { m with moved := true }
  let target := saturate (m.bureaucrat + k)
  if m.tape.length ≤ target then m.fail (.marchedPast how)
  else
    let m := if target < 0 then m.notice (.marchedBelow how) else m
    let bureaucrat := target.toNat
    (.proceed, { m with bureaucrat, delegate := min m.delegate bureaucrat })

/-- Move the bureaucrat forward by the number at the delegate. -/
def promote (m : Machine) : Signal × Machine :=
  match m.readAt m.delegate with
  | (none, m) => (.proceed, m)
  | (some value, m) =>
    if value == 0.0 then (.proceed, m)
    else
      let m := if value < 0.0 then m.notice (.marchedNegative .promoted value) else m
      m.march .promoted (offset value)

/-- Move the bureaucrat back by the number at the delegate. -/
def demote (m : Machine) : Signal × Machine :=
  match m.readAt m.delegate with
  | (none, m) => (.proceed, m)
  | (some value, m) =>
    if value == 0.0 then (.proceed, m)
    else
      let m := if value < 0.0 then m.notice (.marchedNegative .demoted value) else m
      m.march .demoted (reverse (offset value))

/-- Move the bureaucrat by the number at the delegate, forward if it is odd and back if it
    is even. -/
def blossom (m : Machine) : Signal × Machine :=
  match m.readAt m.delegate with
  | (none, m) => (.proceed, m)
  | (some value, m) =>
    let k := offset value
    if k = 0 then (.proceed, m)
    else m.march .blossomed (if isOddOffset k then k else reverse k)

/-- How far the delegate is to move: by the number just before the bureaucrat, or by one. -/
def driftOffset (m : Machine) : Int × Machine :=
  let (value, m) := if m.bureaucrat = 0 then (none, m) else m.readAt (m.bureaucrat - 1)
  (offset (value.getD 1.0), m)

/-- Move the delegate, no further than the start of the tape and the bureaucrat. -/
def drift (m : Machine) (how : Drift) (k : Int) : Machine :=
  let m := if k < 0 then m.notice (.driftedNegative how k) else m
  let target := saturate (m.delegate + k)
  if target < 0 then { m.notice (.driftedBelow how) with delegate := 0 }
  else if m.bureaucrat < target then
    { m.notice (.driftedAbove how) with delegate := m.bureaucrat }
  else { m with delegate := target.toNat }

/-- Move the delegate up. -/
def rise (m : Machine) : Machine :=
  let (k, m) := m.driftOffset
  m.drift .rose k

/-- Move the delegate down. -/
def fall (m : Machine) : Machine :=
  let (k, m) := m.driftOffset
  m.drift .fell (reverse k)

end Machine

end Verse
