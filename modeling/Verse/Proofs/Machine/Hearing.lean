import Verse.Proofs.Machine.Supply
import Verse.Proofs.Stream

/-!
# Machines that hear the same

`Listen` reads values off the line of the input and looks at nothing else of it.  Machines whose
inputs have the same line run in step, wherever the lines come from.

* `Hears`              two machines with the same line to read
* `Hears.listen`       they read the same
* `lockstep_hears`     and run in step
-/

namespace Verse

namespace Machine

/-- Two machines that differ in nothing but their inputs, which have the same line. -/
def Hears (m m' : Machine) : Prop :=
  ∃ input, m' = m.supplied id (fun _ => input) ∧ m.input.SameLine input

variable {m m' : Machine}

/-- With the same line there is the same value to be heard, or none. -/
theorem Hears.listen (h : Hears m m') : Hears m.listen m'.listen := by
  obtain ⟨input, rfl, hline⟩ := h
  obtain ⟨hvalue, hrest⟩ := hline.read
  exact ⟨input.read.2, listen_supplied hvalue hline.isGarbled, by rwa [input_listen]⟩

/-- No command but `Listen` sees the input, and none changes it. -/
theorem agreement_hears : Agreement Hears where
  bureaucrat h := by obtain ⟨input, rfl, -⟩ := h; rfl
  delegate h := by obtain ⟨input, rfl, -⟩ := h; rfl
  moved h := by obtain ⟨input, rfl, -⟩ := h; rfl
  length h := by obtain ⟨input, rfl, -⟩ := h; rfl
  elementAt h _ := by obtain ⟨input, rfl, -⟩ := h; rfl
  name h _ := by obtain ⟨input, rfl, -⟩ := h; rfl
  -- Reading a rung draws from the generator, which is the same for both.
  readAt {m m'} h index := by
    obtain ⟨input, rfl, hline⟩ := h
    rw [readAt_supplied fun _ _ _ => rfl]
    refine ⟨rfl, input, rfl, ?_⟩
    obtain ⟨generator, hdraw⟩ := m.exists_generator_readAt index
    rw [hdraw]
    exact hline
  record h _ _ := by
    obtain ⟨input, rfl, hline⟩ := h
    exact ⟨input, rfl, hline⟩
  unrelated h _ _ _ _ _ _ := by
    obtain ⟨input, rfl, hline⟩ := h
    exact ⟨input, rfl, hline⟩
  place h _ _ _ := by
    obtain ⟨input, rfl, hline⟩ := h
    exact ⟨input, rfl, hline⟩
  -- Writing leaves the input alone, whatever kind of rung is written to.
  assignAt {m m'} h index value source hs := by
    obtain ⟨input, rfl, hline⟩ := h
    refine ⟨input, m.assignAt_supplied index value source, ?_⟩
    unfold assignAt
    split
    · exact hline
    · split <;> exact hline
  advanceAt {m m'} h index relation hvalue := by
    obtain ⟨input, rfl, hline⟩ := h
    refine ⟨input, m.advanceAt_supplied index relation, ?_⟩
    unfold advanceAt
    split
    · exact hline
    · split <;> exact hline
  ascend h _ _ _ _ := by
    obtain ⟨input, rfl, hline⟩ := h
    exact ⟨input, rfl, hline⟩

/-- A capture leaves the input alone. -/
theorem input_capture (m : Machine) : m.capture.2.input = m.input := by
  obtain ⟨-, h⟩ | ⟨name, last, -, h⟩ | ⟨name, -, -, h⟩ := m.capture_cases <;> rw [h]
  · rfl
  · unfold captured
    split <;> rfl
  · rfl

/-- Machines that hear the same run in step, on the very same rungs. -/
theorem lockstep_hears : Lockstep Hears (· = ·) where
  agreement := agreement_hears
  tape {m m'} h index := by
    obtain ⟨input, rfl, -⟩ := h
    rw [tape_supplied]
    cases m.tape[index]? with
    | none => exact .none
    | some rung => exact .some rfl
  block {m m'} h name := by
    obtain ⟨input, rfl, -⟩ := h
    rw [show (m.supplied id fun _ => input).vars = m.vars from rfl]
    cases m.vars.block? name with
    | none => exact .none
    | some block => exact .some (List.forall₂_refl block)
  cell h := by rw [h]
  begin h hrung frame := by
    obtain ⟨input, rfl, hline⟩ := h
    subst hrung
    exact ⟨input, rfl, hline⟩
  act {m m' rung rung'} h hrung := by
    subst hrung
    refine agreement_hears.act h rfl (fun _ => h.listen) (fun _ _ => ?_) (fun _ => ?_)
    · obtain ⟨input, rfl, hline⟩ := h
      exact ⟨input, rfl, hline⟩
    · obtain ⟨input, rfl, hline⟩ := h
      -- What the one captures the other captures, with its own input.
      rw [capture_supplied]
      exact ⟨rfl, input, rfl, by rwa [input_capture]⟩

end Machine

end Verse
