import Std.Data.ExtTreeMap
import Verse.Rung

/-!
# Variables

A variable holds a number or a captured block of rungs, and has an element.  It exists from
its first assignment or capture; until then nothing is known about it.

* `get?_set`     what a change does to each variable
* `ext_get?`     a table is known by what it holds under each name
-/

namespace Verse

/-- What a variable holds. -/
inductive Binding where
  /-- A number. -/
  | value (value : Float)
  /-- A captured block, executed whenever the variable is. -/
  | block (rungs : List Rung)
deriving DecidableEq

/-- A variable with its element. -/
structure Variable where
  element : Element
  binding : Binding
deriving DecidableEq

namespace Variable

/-- The number that a variable holds. -/
def value? (v : Variable) : Option Float :=
  match v.binding with
  | .value value => some value
  | .block _ => none

/-- The block that a variable holds. -/
def block? (v : Variable) : Option (List Rung) :=
  match v.binding with
  | .value _ => none
  | .block rungs => some rungs

end Variable

/-- The variables of a run, by their names. -/
structure Variables where
  table : Std.ExtTreeMap String Variable := ∅

namespace Variables

/-- No variables. -/
def empty : Variables := {}

instance : Inhabited Variables := ⟨empty⟩

/-- The variable of a name. -/
def get? (vars : Variables) (name : String) : Option Variable :=
  vars.table[name]?

/-- Put a variable in the place of an earlier one of its name. -/
def set (vars : Variables) (name : String) (v : Variable) : Variables :=
  ⟨vars.table.insert name v⟩

/-- The variables with their names, in the order of the names. -/
def toList (vars : Variables) : List (String × Variable) :=
  vars.table.toList

/-- How many variables there are. -/
def size (vars : Variables) : Nat :=
  vars.table.size

/-- The number of a variable. -/
def value? (vars : Variables) (name : String) : Option Float :=
  (vars.get? name).bind Variable.value?

/-- The block of a variable. -/
def block? (vars : Variables) (name : String) : Option (List Rung) :=
  (vars.get? name).bind Variable.block?

/-- The element of a variable, void if it does not exist. -/
def elementOf (vars : Variables) (name : String) : Element :=
  ((vars.get? name).map Variable.element).getD .void

/-- Store a number.  A variable without an element takes earth.  Any other keeps its
    element, unless the number brings one along. -/
def assign (vars : Variables) (name : String) (value : Float) (source : Option Element) :
    Variables :=
  let element :=
    match vars.elementOf name with
    | .void => .earth
    | current => source.getD current
  vars.set name { element, binding := .value value }

/-- Store a block.  A variable without an element takes that of the rung that names the
    block. -/
def bind (vars : Variables) (name : String) (rungs : List Rung) (nameElement : Element) :
    Variables :=
  let element :=
    match vars.elementOf name with
    | .void => nameElement
    | current => current
  vars.set name { element, binding := .block rungs }

/-- Advance the element of a variable, if there is such a variable. -/
def advance (vars : Variables) (name : String) (relation : Relation) : Variables :=
  match vars.get? name with
  | none => vars
  | some v => vars.set name { v with element := v.element.advance relation }

@[simp] theorem get?_empty (name : String) : empty.get? name = none := by
  simp [empty, get?]

theorem get?_set (vars : Variables) (name other : String) (v : Variable) :
    (vars.set name v).get? other = if name = other then some v else vars.get? other := by
  simp [set, get?, Std.ExtTreeMap.getElem?_insert]

/-- Two tables with the same variables are the same table. -/
theorem ext_get? {a b : Variables} (h : ∀ name, a.get? name = b.get? name) : a = b := by
  cases a; cases b
  simpa [get?] using Std.ExtTreeMap.ext_getElem? h

end Variables

end Verse
