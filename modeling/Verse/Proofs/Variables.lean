import Verse.Variables

/-!
# What a variable holds

A variable holds a number or a block.  Storing the one discards the other, and advancing its
element keeps both.
-/

namespace Verse.Variables

/-- What the variable of a name holds. -/
def binding? (vars : Variables) (name : String) : Option Binding :=
  (vars.get? name).map Variable.binding

/-- A number is held by a variable whose binding is that number. -/
theorem value?_eq_some_iff {vars : Variables} {name : String} {value : Float} :
    vars.value? name = some value ↔ vars.binding? name = some (.value value) := by
  rw [value?, binding?]
  cases vars.get? name with
  | none => simp
  | some v => cases h : v.binding <;> simp [Variable.value?, h]

/-- A block is held by a variable whose binding is that block. -/
theorem block?_eq_some_iff {vars : Variables} {name : String} {block : List Rung} :
    vars.block? name = some block ↔ vars.binding? name = some (.block block) := by
  rw [block?, binding?]
  cases vars.get? name with
  | none => simp
  | some v => cases h : v.binding <;> simp [Variable.block?, h]

/-- Variables that hold the same have the same block. -/
theorem block?_congr {vars vars' : Variables} {name : String}
    (h : vars'.binding? name = vars.binding? name) : vars'.block? name = vars.block? name :=
  Option.ext fun block => by rw [block?_eq_some_iff, block?_eq_some_iff, h]

/-- A variable that holds a number has no block. -/
theorem block?_of_binding?_value {vars : Variables} {name : String} {value : Float}
    (h : vars.binding? name = some (.value value)) : vars.block? name = none := by
  refine Option.eq_none_iff_forall_ne_some.mpr fun block hblock => ?_
  rw [block?_eq_some_iff, h] at hblock
  cases hblock

/-- There is nothing in no variables. -/
@[simp] theorem binding?_empty (name : String) : empty.binding? name = none := by
  rw [binding?, get?_empty]
  rfl

/-- Look up a number that has been stored. -/
theorem binding?_assign (vars : Variables) (name other : String) (value : Float)
    (source : Option Element) :
    (vars.assign name value source).binding? other =
      if name = other then some (.value value) else vars.binding? other := by
  simp only [binding?, assign, get?_set]
  split <;> rfl

/-- Look up a block that has been stored. -/
theorem binding?_bind (vars : Variables) (name other : String) (rungs : List Rung)
    (element : Element) :
    (vars.bind name rungs element).binding? other =
      if name = other then some (.block rungs) else vars.binding? other := by
  simp only [binding?, bind, get?_set]
  split <;> rfl

/-- Advancing the element of a variable leaves what all of them hold. -/
@[simp] theorem binding?_advance (vars : Variables) (name other : String) (relation : Relation) :
    (vars.advance name relation).binding? other = vars.binding? other := by
  unfold advance
  split
  · rfl
  case h_2 v hv =>
    simp only [binding?, get?_set]
    split
    case isTrue h =>
      rw [← h, hv]
      rfl
    · rfl

/-- Of all variables, those of one name are at most one. -/
theorem flatMap_toList (vars : Variables) {α : Type} {name : String}
    {f : String × Variable → List α} (h : ∀ item, item.1 ≠ name → f item = []) :
    vars.toList.flatMap f = (vars.get? name).toList.flatMap fun v => f (name, v) := by
  cases hvar : vars.get? name with
  | none =>
    rw [Option.toList_none, List.flatMap_nil, List.flatMap_eq_nil_iff]
    intro item hitem
    refine h item ?_
    rintro rfl
    rw [get?, Std.ExtTreeMap.mem_toList_iff_getElem?_eq_some.mp hitem] at hvar
    cases hvar
  | some v =>
    have hmem : (name, v) ∈ vars.toList := Std.ExtTreeMap.mem_toList_iff_getElem?_eq_some.mpr hvar
    have hdistinct := Std.ExtTreeMap.distinct_keys_toList (t := vars.table)
    obtain ⟨before, after, hsplit⟩ := List.append_of_mem hmem
    rw [← toList, hsplit, List.pairwise_append, List.pairwise_cons] at hdistinct
    obtain ⟨-, ⟨hafter, -⟩, hbefore⟩ := hdistinct
    -- The other variables have other names.
    have hnil : ∀ item ∈ before ++ after, f item = [] := by
      intro item hitem
      refine h item ?_
      rintro rfl
      obtain hitem | hitem := List.mem_append.mp hitem
      · exact hbefore item hitem _ List.mem_cons_self Std.ReflCmp.compare_self
      · exact hafter item hitem Std.ReflCmp.compare_self
    rw [List.forall_mem_append, ← List.flatMap_eq_nil_iff, ← List.flatMap_eq_nil_iff] at hnil
    rw [hsplit, List.flatMap_append, List.flatMap_cons, hnil.1, hnil.2, List.nil_append]
    rfl

/-! ## Elements -/

/-- Setting a variable sets its element. -/
theorem elementOf_set (vars : Variables) (name other : String) (v : Variable) :
    (vars.set name v).elementOf other = if name = other then v.element else vars.elementOf other := by
  rw [elementOf, elementOf, get?_set]
  split <;> rfl

/-- The element that a variable has once a number is stored in it. -/
theorem elementOf_assign (vars : Variables) (name other : String) (value : Float)
    (source : Option Element) :
    (vars.assign name value source).elementOf other =
      if name = other then
        if vars.elementOf name = .void then .earth else source.getD (vars.elementOf name)
      else vars.elementOf other := by
  rw [assign, elementOf_set]
  cases vars.elementOf name <;> rfl

/-- A block that is captured leaves the elements of the other variables. -/
theorem elementOf_bind (vars : Variables) (name other : String) (rungs : List Rung)
    (element : Element) (h : name ≠ other) :
    (vars.bind name rungs element).elementOf other = vars.elementOf other := by
  rw [bind, elementOf_set, if_neg h]

/-- Each element stays as it is or advances. -/
theorem elementOf_advance (vars : Variables) (name other : String) (relation : Relation) :
    (vars.advance name relation).elementOf other = vars.elementOf other ∨
      (vars.advance name relation).elementOf other = (vars.elementOf other).advance relation := by
  cases hv : vars.get? name with
  | none =>
    rw [advance, hv]
    exact .inl rfl
  | some v =>
    rw [advance, hv]
    by_cases hname : name = other
    · subst hname
      refine .inr ?_
      rw [elementOf_set, if_pos rfl, elementOf, hv]
      rfl
    · exact .inl (by rw [elementOf_set, if_neg hname])

/-! ## What is put in the place of a variable -/

/-- What becomes of a variable that takes a number.  One without an element takes earth.  Any other
    takes the element that the number brings along, if it brings one, and else keeps its own. -/
def storing (vars : Variables) (name : String) (value : Float) (source : Option Element) :
    Variable where
  element := if vars.elementOf name = .void then .earth else source.getD (vars.elementOf name)
  binding := .value value

/-- What becomes of a variable that takes a block.  One without an element takes that of the rung
    that names the block, and any other keeps its own. -/
def capturing (vars : Variables) (name : String) (nameElement : Element) (rungs : List Rung) :
    Variable where
  element := if vars.elementOf name = .void then nameElement else vars.elementOf name
  binding := .block rungs

/-- Looking up a number that has been stored, with the element of its variable. -/
theorem get?_assign (vars : Variables) (name other : String) (value : Float)
    (source : Option Element) :
    (vars.assign name value source).get? other =
      if name = other then some (vars.storing name value source) else vars.get? other := by
  rw [assign, get?_set, storing]
  cases vars.elementOf name <;> rfl

/-- Looking up a block that has been stored, with the element of its variable. -/
theorem get?_bind (vars : Variables) (name other : String) (rungs : List Rung)
    (nameElement : Element) :
    (vars.bind name rungs nameElement).get? other =
      if name = other then some (vars.capturing name nameElement rungs) else vars.get? other := by
  rw [bind, get?_set, capturing]
  cases vars.elementOf name <;> rfl

/-- Advancing the element of a variable leaves every other one. -/
theorem get?_advance_of_ne (vars : Variables) {name other : String} (h : name ≠ other)
    (relation : Relation) : (vars.advance name relation).get? other = vars.get? other := by
  rw [advance]
  split
  · rfl
  · rw [get?_set, if_neg h]

end Verse.Variables
