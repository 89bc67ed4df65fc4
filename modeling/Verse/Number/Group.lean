import Verse.Diagnostic
import Verse.Numeric.Decimal

/-!
# Number groups

A hyphen group of number words is read as one number by the grammar of English:
`two-hundred-fifty` is 250 and `three-thousand-two` is 3002.  Five passes over the group
join its terms, each term with the order of magnitude that the grammar gives it:

* `units`        a multiple of ten takes the units after it: `twenty-five`
* `hundreds`     a number below one hundred multiplies a hundred after it: `two-hundred`
* `remainders`   a hundred takes the smaller number after it: `two-hundred-fifty`
* `multiples`    a number multiplies every larger magnitude after it: `two-hundred-thousand`
* `sums`         a number takes every smaller magnitude after it: `three-thousand-two`

Two terms of one magnitude side by side never join.
-/

namespace Verse.Number

/-- A number word of a group, or several that have been joined. -/
structure Term where
  place : Place
  text : String
  value : Nat
  magnitude : Nat
deriving DecidableEq

/-- A single number word as a term. -/
def Term.ofValue (place : Place) (text : String) (value : Nat) : Term :=
  { place, text, value, magnitude := Numeric.magnitude value }

/-- How values are added and multiplied. -/
structure Arithmetic where
  add : Nat → Nat → Nat
  mul : Nat → Nat → Nat

/-- The arithmetic of 64-bit words, which stops at the greatest one. -/
def Arithmetic.saturating : Arithmetic where
  add a b := min (a + b) (UInt64.size - 1)
  mul a b := min (a * b) (UInt64.size - 1)

/-- The arithmetic of all natural numbers. -/
def Arithmetic.exact : Arithmetic where
  add a b := a + b
  mul a b := a * b

/-- What becomes of a term and the term after it. -/
inductive Meeting where
  /-- They stay apart. -/
  | apart
  /-- They become one term of this value and magnitude. -/
  | join (value magnitude : Nat)
  /-- They cannot stand side by side. -/
  | clash

/-- A multiple of ten takes the units after it. -/
def units (arithmetic : Arithmetic) (term next : Term) : Meeting :=
  if 2 ≤ term.magnitude then .apart
  else
    match compare term.magnitude next.magnitude with
    | .eq => .clash
    | .lt => .apart
    | .gt =>
      if term.value % 10 = 0 then .join (arithmetic.add term.value next.value) term.magnitude
      else .clash

/-- A number below one hundred multiplies a hundred after it. -/
def hundreds (arithmetic : Arithmetic) (term next : Term) : Meeting :=
  if 2 ≤ term.magnitude then .apart
  else
    match compare next.magnitude 2 with
    | .eq => .join (arithmetic.mul term.value next.value) 2
    | .lt => .clash
    | .gt => .apart

/-- A hundred takes the smaller number after it. -/
def remainders (arithmetic : Arithmetic) (term next : Term) : Meeting :=
  if term.magnitude ≠ 2 then .apart
  else
    match compare term.magnitude next.magnitude with
    | .gt => .join (arithmetic.add term.value next.value) 2
    | .eq => .clash
    | .lt => .apart

/-- A number multiplies a larger magnitude after it. -/
def multiples (arithmetic : Arithmetic) (term next : Term) : Meeting :=
  match compare term.magnitude next.magnitude with
  | .lt => .join (arithmetic.mul term.value next.value) (term.magnitude + next.magnitude)
  | .eq => .clash
  | .gt => .apart

/-- A number takes a smaller magnitude after it. -/
def sums (arithmetic : Arithmetic) (term next : Term) : Meeting :=
  match compare term.magnitude next.magnitude with
  | .gt => .join (arithmetic.add term.value next.value) term.magnitude
  | .eq => .clash
  | .lt => .apart

/-- The joined term stands at the place of the first and is spelled with a hyphen. -/
def Term.join (term next : Term) (value magnitude : Nat) : Term :=
  { place := term.place, text := term.text ++ "-" ++ next.text, value, magnitude }

/-- Two terms that make no number, found at the second. -/
def clash (term next : Term) : Diagnostic :=
  ⟨next.place, .unjoinable term.text next.text⟩

/-- One pass over a group.  With `again`, a joined term goes on joining until the next term
    stays apart. -/
def pass (meet : Term → Term → Meeting) (again : Bool) (term : Term) :
    List Term → Except Diagnostic (List Term)
  | [] => .ok [term]
  | next :: rest =>
    match meet term next with
    | .apart => (pass meet again next rest).map (term :: ·)
    | .clash => .error (clash term next)
    | .join value magnitude =>
      let joined := term.join next value magnitude
      bif again then pass meet again joined rest
      else
        match rest with
        | [] => .ok [joined]
        | third :: rest => (pass meet again third rest).map (joined :: ·)

/-- One pass over a group that may be empty. -/
def passAll (meet : Term → Term → Meeting) (again : Bool) :
    List Term → Except Diagnostic (List Term)
  | [] => .ok []
  | term :: rest => pass meet again term rest

/-- The group after its five passes: the terms that are still apart. -/
def reduce (arithmetic : Arithmetic) (terms : List Term) : Except Diagnostic (List Term) := do
  let terms ← passAll (units arithmetic) false terms
  let terms ← passAll (hundreds arithmetic) false terms
  let terms ← passAll (remainders arithmetic) false terms
  let terms ← passAll (multiples arithmetic) true terms
  passAll (sums arithmetic) true terms

/-- Read a group as one number. -/
def combine (arithmetic : Arithmetic) (first : Term) (rest : List Term) :
    Except Diagnostic Term :=
  match reduce arithmetic (first :: rest) with
  | .error diagnostic => .error diagnostic
  | .ok [] => .ok first
  | .ok [number] => .ok number
  | .ok (left :: right :: _) => .error (clash left right)

end Verse.Number
