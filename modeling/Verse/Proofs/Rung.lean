import Verse.Machine.Dispatch

/-!
# What becomes of a rung

A rung on the tape is changed in three ways only: a literal takes another number, the
element of a literal advances, and a literal or a variable turns into `Heaven`.
-/

namespace Verse.Rung

/-- A rung that names a variable is one. -/
theorem variableName?_eq_some {rung : Rung} {name : String}
    (h : rung.variableName? = some name) : rung.cell = .variable name := by
  rw [variableName?] at h
  split at h
  case h_1 other hcell => rw [hcell, Option.some.inj h]
  case h_2 => cases h

/-- What can become of a rung while it stands on the tape. -/
inductive Change : Rung → Rung → Prop
  /-- A literal takes another number. -/
  | overwrite {rung : Rung} {old : Float} (h : rung.cell = .literal old) (value : Float) :
      Change rung { rung with cell := .literal value }
  /-- The element of a literal advances. -/
  | advance {rung : Rung} {value : Float} (h : rung.cell = .literal value) (relation : Relation) :
      Change rung { rung with element := rung.element.advance relation }
  /-- A literal or a variable turns into `Heaven`. -/
  | ascend {rung : Rung}
      (h : (∃ value, rung.cell = .literal value) ∨ ∃ name, rung.cell = .variable name) :
      Change rung (Machine.toHeaven rung)

/-- What a rung may have become after any number of changes.  A literal may have taken any
    number, and its element may have advanced along any relations.  A variable is what it was,
    or it has become `Heaven`, as a literal may have too.  No other rung changes. -/
inductive MayBecome (old : Rung) : Rung → Prop
  | same : MayBecome old old
  | literal {number : Float} (h : old.cell = .literal number) (value : Float)
      (relations : List Relation) :
      MayBecome old { old with
        cell := .literal value
        element := relations.foldl Element.advance old.element }
  | heaven (h : (∃ value, old.cell = .literal value) ∨ ∃ name, old.cell = .variable name) :
      MayBecome old { old with cell := .command .heaven, element := .earth }

/-- Whatever becomes of a rung, its position stays. -/
theorem MayBecome.position_eq {old new : Rung} (h : MayBecome old new) :
    new.position = old.position := by
  cases h <;> rfl

/-- So does its name. -/
theorem MayBecome.name_eq {old new : Rung} (h : MayBecome old new) : new.name = old.name := by
  cases h <;> rfl

/-- A single change is one of them. -/
theorem Change.mayBecome {old new : Rung} (h : Change old new) : MayBecome old new := by
  cases h with
  | overwrite h value => exact .literal h value []
  | @advance value h relation =>
    have hadvance := MayBecome.literal h value [relation]
    rwa [← h] at hadvance
  | ascend h => exact .heaven h

/-- What becomes of what has become of a rung has become of the rung. -/
theorem MayBecome.trans {old mid new : Rung} (h : MayBecome old mid) (h' : MayBecome mid new) :
    MayBecome old new := by
  cases h with
  | same => exact h'
  | literal hold value relations =>
    cases h' with
    | same => exact .literal hold value relations
    | literal _ value' relations' =>
      rw [← List.foldl_append]
      exact .literal hold value' (relations ++ relations')
    | heaven _ => exact .heaven (.inl ⟨_, hold⟩)
  | heaven hold =>
    cases h' with
    | same => exact .heaven hold
    | literal h _ _ => cases h
    | heaven _ => exact .heaven hold

end Verse.Rung
