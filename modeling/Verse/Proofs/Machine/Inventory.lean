import Mathlib.Data.List.Forall2
import Verse.Proofs.Machine.Act

/-!
# All rungs of a machine

The rungs of a machine stand on its tape and in the blocks of its variables.  A kind of rung that
no rung can turn into, and that is not read from the input, cannot get there in a run: blocks are
copied from the tape, and everything else stays on it.

* `Rung.IsLasting`            kinds of rungs that cannot be left
* `AllRungs.edits`, `AllRungs.listen`, `AllRungs.capture`
                              a machine that has no other rungs gets none
-/

namespace Verse

/-- A kind of rung that a rung of the kind stays in whatever becomes of it, and that every rung
    read from the input belongs to. -/
structure Rung.IsLasting (P : Rung → Prop) : Prop where
  change {old new : Rung} (h : old.Change new) (hold : P old) : P new
  heard (m : Machine) (event : InputEvent) : P (m.heardRung event)

/-- A command other than `Heaven` is nothing that a rung turns into. -/
theorem Rung.isLasting_ne_command {command : Command} (h : command ≠ .heaven) :
    IsLasting fun rung => rung.cell ≠ .command command where
  change hchange hold := by
    cases hchange with
    | overwrite _ _ => simp
    | advance _ _ => exact hold
    | ascend _ => exact fun hcell => h (Cell.command.inj hcell).symm
  heard _ _ := by simp [Machine.heardRung]

/-- A rung that stays in two kinds stays in both. -/
theorem Rung.IsLasting.and {P Q : Rung → Prop} (hP : IsLasting P) (hQ : IsLasting Q) :
    IsLasting fun rung => P rung ∧ Q rung where
  change h hold := ⟨hP.change h hold.1, hQ.change h hold.2⟩
  heard m event := ⟨hP.heard m event, hQ.heard m event⟩

namespace Machine

/-- All rungs of a machine, on the tape and in blocks, are of a kind. -/
structure AllRungs (P : Rung → Prop) (m : Machine) : Prop where
  tape : ∀ rung ∈ m.tape, P rung
  blocks : ∀ name block, m.vars.block? name = some block → ∀ rung ∈ block, P rung

variable {P : Rung → Prop} {m m' : Machine}

/-- A run starts without blocks, and with the rungs of its program. -/
theorem allRungs_start {program : List Rung} (h : ∀ rung ∈ program, P rung) (m : Machine) :
    (m.start program).AllRungs P := by
  refine ⟨h, fun name block hblock => ?_⟩
  rw [show (m.start program).vars = .empty from rfl, Variables.block?_eq_some_iff,
    Variables.binding?_empty] at hblock
  cases hblock

/-- The same rung, of a kind. -/
def SameOf (P : Rung → Prop) (rung rung' : Rung) : Prop :=
  rung' = rung ∧ P rung

namespace AllRungs

/-- A rung on the tape is of the kind. -/
theorem getElem? (h : m.AllRungs P) {index : Nat} {rung : Rung}
    (hrung : m.tape[index]? = some rung) : P rung :=
  h.tape rung (List.mem_of_getElem? hrung)

/-- The rung at an index is related to itself, if it is there. -/
theorem rel_tape (h : m.AllRungs P) (index : Nat) :
    Option.Rel (SameOf P) m.tape[index]? m.tape[index]? := by
  cases hrung : m.tape[index]? with
  | none => exact .none
  | some rung => exact .some ⟨rfl, h.getElem? hrung⟩

/-- So is the block of a variable, rung by rung. -/
theorem rel_block? (h : m.AllRungs P) (name : String) :
    Option.Rel (List.Forall₂ (SameOf P)) (m.vars.block? name) (m.vars.block? name) := by
  cases hblock : m.vars.block? name with
  | none => exact .none
  | some block =>
    exact .some (List.forall₂_same.mpr fun rung hrung =>
      ⟨rfl, h.blocks name block hblock rung hrung⟩)

/-- Assigning a number leaves no new block. -/
theorem assign (h : m.AllRungs P) (name : String) (value : Float) (source : Option Element) :
    ∀ other block, (m.vars.assign name value source).block? other = some block →
      ∀ rung ∈ block, P rung := by
  intro other block hblock
  rw [Variables.block?_eq_some_iff, Variables.binding?_assign] at hblock
  -- The variable that takes the number has no block any more.
  split at hblock
  · cases hblock
  · exact h.blocks other block (Variables.block?_eq_some_iff.mpr hblock)

/-- An edit changes a rung into what the kind allows, and makes no block. -/
theorem edit (hP : Rung.IsLasting P) (h : m.AllRungs P) (hedit : Edit m m') : m'.AllRungs P := by
  cases hedit with
  | record _ | draw _ | march _ | drift _ => exact ⟨h.tape, h.blocks⟩
  | change hold hchange =>
    refine ⟨fun rung hrung => ?_, h.blocks⟩
    -- The rung is one of the others, or what has become of the old one.
    obtain hrung | rfl := List.mem_or_eq_of_mem_set hrung
    · exact h.tape rung hrung
    · exact hP.change hchange (h.getElem? hold)
  | assign _ _ value _ => exact ⟨h.tape, h.assign _ value _⟩
  | advance _ relation =>
    refine ⟨h.tape, fun name block hblock => h.blocks name block ?_⟩
    rwa [Variables.block?_congr (Variables.binding?_advance _ _ _ _)] at hblock

/-- Edits one after the other do so too. -/
theorem edits (hP : Rung.IsLasting P) (h : m.AllRungs P) (hedits : Edits m m') :
    m'.AllRungs P := by
  induction hedits with
  | refl => exact h
  | tail _ hedit ih => exact ih.edit hP hedit

/-- Attending to the input leaves the rungs alone. -/
theorem heeded (h : m.AllRungs P) : m.heeded.AllRungs P := by
  unfold Machine.heeded
  split <;> exact ⟨h.tape, h.blocks⟩

/-- A rung of the kind may be inserted. -/
theorem insert_zero (h : m.AllRungs P) {rung : Rung} (hrung : P rung) :
    (m.insert rung 0).AllRungs P := by
  refine ⟨fun other hother => ?_, h.blocks⟩
  rw [Machine.insert, List.insertIdx_zero] at hother
  obtain rfl | hother := List.mem_cons.mp hother
  · exact hrung
  · exact h.tape other hother

/-- What `Listen` inserts is read from the input or was on the tape. -/
theorem listen (hP : Rung.IsLasting P) (h : m.AllRungs P) : m.listen.AllRungs P := by
  obtain ⟨event, -, hlisten⟩ | ⟨-, next, hnext, hlisten⟩ | ⟨-, -, hlisten⟩ := m.listen_cases <;>
    rw [hlisten]
  · have hrecord : (m.heeded.record (.heard event)).AllRungs P :=
      ⟨h.heeded.tape, h.heeded.blocks⟩
    have hinsert := hrecord.insert_zero (hP.heard m event)
    exact ⟨hinsert.tape, hinsert.blocks⟩
  · have herase : (m.heeded.erase (m.bureaucrat + 1)).AllRungs P :=
      ⟨fun rung hrung => h.heeded.tape rung (List.mem_of_mem_eraseIdx hrung), h.heeded.blocks⟩
    exact herase.insert_zero (h.getElem? hnext)
  · exact h.heeded

/-- A block has the rungs of the tape that it was captured from. -/
theorem capture (h : m.AllRungs P) : m.capture.2.AllRungs P := by
  obtain ⟨-, hcapture⟩ | ⟨name, last, -, hcapture⟩ | ⟨name, -, -, hcapture⟩ := m.capture_cases <;>
    rw [hcapture]
  · exact ⟨h.tape, h.blocks⟩
  · unfold captured
    split
    · refine ⟨h.tape, fun other block hblock => ?_⟩
      rw [Variables.block?_eq_some_iff, Variables.binding?_bind] at hblock
      split at hblock
      · -- The block has been copied from the tape.
        obtain rfl := Binding.block.inj (Option.some.inj hblock)
        intro rung hrung
        rw [List.extract_eq_take_drop] at hrung
        exact h.tape rung (List.mem_of_mem_drop (List.mem_of_mem_take hrung))
      · exact h.blocks other block (Variables.block?_eq_some_iff.mpr hblock)
    · exact ⟨h.tape, h.blocks⟩
  · exact ⟨h.tape, h.blocks⟩

end AllRungs

end Machine

end Verse
