import Mathlib.Order.Bounds.Basic
import Verse.Proofs.Machine.Point
import Verse.Proofs.Machine.Still

/-!
# Where a block ends

A step on a punctuation mark finds no name, or a name with a rung behind it that ends the block,
or a name without one.  The block ends at the first of the rungs that can end it, whatever kind of
rung the name is, and the step leaves the bureaucrat behind that rung, which is not executed.

* `endsAt_iff_isLeast`          the end of a block is the least of its possible ends
* `step_of_punctuation`         a step on a punctuation mark is a capture
* `capture_is_exact`            what such a step does, for each name and each end
-/

namespace Verse

namespace Machine

/-! ## The rungs that can end a block -/

/-- Where the block of a name can end: at every punctuation mark behind the name, and at every rung
    there that says the name again. -/
def terminators (m : Machine) (name : Rung) : Set Nat :=
  {t | m.bureaucrat + 2 ≤ t ∧ ∃ rung, m.tape[t]? = some rung ∧
    (rung.isPunctuation = true ∨ name.isLike rung = true)}

variable {m : Machine} {name : Rung} {last : Nat}

/-- The rungs that can end a block are those that end it in a search. -/
theorem mem_terminators_iff : last ∈ m.terminators name ↔
    m.bureaucrat + 2 ≤ last ∧ ∃ rung, m.tape[last]? = some rung ∧ rung.endsBlockOf name = true := by
  simp only [Rung.endsBlockOf, Bool.or_eq_true]
  exact Iff.rfl

/-- The rungs inside of a block are those at the indices between the name and the end. -/
theorem mem_extract_iff {rung : Rung} : rung ∈ m.tape.extract (m.bureaucrat + 2) last ↔
    ∃ t, m.bureaucrat + 2 ≤ t ∧ t < last ∧ m.tape[t]? = some rung := by
  rw [List.extract_eq_take_drop, List.mem_iff_getElem?]
  simp only [List.getElem?_take, List.getElem?_drop, Option.ite_none_right_eq_some]
  constructor
  · rintro ⟨i, hi, hrung⟩
    exact ⟨m.bureaucrat + 2 + i, by omega, by omega, hrung⟩
  · rintro ⟨t, hle, hlt, hrung⟩
    -- Indices inside of the block count from its first rung.
    obtain ⟨i, rfl⟩ : ∃ i, t = m.bureaucrat + 2 + i := ⟨t - (m.bureaucrat + 2), by omega⟩
    exact ⟨i, by omega, hrung⟩

/-- The block of a name ends at the least index at which it can. -/
theorem endsAt_iff_isLeast (hname : m.tape[m.bureaucrat + 1]? = some name) :
    m.EndsAt name last ↔ IsLeast (m.terminators name) last := by
  constructor
  · intro hend
    refine ⟨mem_terminators_iff.mpr ⟨hend.name_lt, hend.ends⟩, fun t ht => ?_⟩
    obtain ⟨hle, rung, hrung, hends⟩ := mem_terminators_iff.mp ht
    -- A rung before the end is inside of the block, and nothing inside ends it.
    by_contra hlt
    have hinside := hend.inside rung (mem_extract_iff.mpr ⟨t, hle, by omega, hrung⟩)
    rw [hends] at hinside
    cases hinside
  · rintro ⟨hmem, hleast⟩
    obtain ⟨hle, rung, hrung, hends⟩ := mem_terminators_iff.mp hmem
    refine ⟨hname, hle, (List.getElem?_eq_some_iff.mp hrung).1, ⟨rung, hrung, hends⟩, ?_⟩
    intro other hother
    obtain ⟨t, hle', hlt, hget⟩ := mem_extract_iff.mp hother
    apply Bool.eq_false_iff.mpr
    intro hends'
    have := hleast (mem_terminators_iff.mpr ⟨hle', other, hget, hends'⟩)
    omega

/-! ## The three ways in which a capture goes -/

/-- A punctuation mark at the end of the tape remarks on itself. -/
theorem capture_of_length_le (h : m.tape.length ≤ m.bureaucrat + 1) :
    m.capture = (.proceed, m.notice .lastPunctuation) := by
  have hnone : m.tape[m.bureaucrat + 1]? = none := List.getElem?_eq_none_iff.mpr h
  obtain ⟨-, hcapture⟩ | ⟨name, last, hend, -⟩ | ⟨name, hname, -⟩ := m.capture_cases
  · exact hcapture
  · exact absurd (hnone.symm.trans hend.name_eq) (by simp)
  · exact absurd (hnone.symm.trans hname) (by simp)

/-- A block that ends is captured up to the least index at which it can. -/
theorem capture_of_isLeast (hname : m.tape[m.bureaucrat + 1]? = some name)
    (h : IsLeast (m.terminators name) last) : m.capture = (.proceed, m.captured name last) := by
  obtain ⟨hnone, -⟩ | ⟨other, last', hend, hcapture⟩ | ⟨other, hother, hinside, -⟩ :=
    m.capture_cases
  · exact absurd (hnone.symm.trans hname) (by simp)
  · obtain rfl := Option.some.inj (hname.symm.trans hend.name_eq)
    have hunique : last' = last := ((endsAt_iff_isLeast hname).mp hend).unique h
    rw [hcapture, hunique]
  · -- The rung at the end is one of those behind the name.
    obtain rfl := Option.some.inj (hname.symm.trans hother)
    obtain ⟨hle, rung, hrung, hends⟩ := mem_terminators_iff.mp h.1
    have hmem : rung ∈ m.tape.drop (m.bureaucrat + 2) := by
      apply List.mem_of_getElem? (i := last - (m.bureaucrat + 2))
      rw [List.getElem?_drop, Nat.add_sub_cancel' hle, hrung]
    rw [hinside rung hmem] at hends
    cases hends

/-- A block that cannot end ends the run. -/
theorem capture_of_terminators_eq_empty (hname : m.tape[m.bureaucrat + 1]? = some name)
    (h : m.terminators name = ∅) : m.capture = m.fail .endlessBlock := by
  obtain ⟨hnone, -⟩ | ⟨other, last, hend, -⟩ | ⟨other, -, -, hcapture⟩ := m.capture_cases
  · exact absurd (hnone.symm.trans hname) (by simp)
  · obtain rfl := Option.some.inj (hname.symm.trans hend.name_eq)
    have hmem := ((endsAt_iff_isLeast hname).mp hend).1
    rw [h] at hmem
    exact absurd hmem (Set.notMem_empty last)
  · exact hcapture

/-! ## Steps -/

/-- A punctuation mark captures, whatever the depth. -/
theorem execute_of_punctuation {mark : Rung} (hcell : mark.cell = .punctuation) (depth : Nat)
    (frame : Option Frame) (m : Machine) :
    execute depth frame mark m = some (m.begin frame mark).capture := by
  have hcalled : (m.begin frame mark).called? mark = none := by
    rw [called?, Rung.variableName?, hcell]
    rfl
  rw [execute_of_none hcalled, act, hcell]

/-- A capture is no move of the bureaucrat, so that the step passes the rung at which the capture
    has left it, unless the run ends. -/
theorem step_of_punctuation {mark : Rung} (hmark : m.tape[m.bureaucrat]? = some mark)
    (hcell : mark.cell = .punctuation) (depth : Nat) {signal : Signal} {m' : Machine}
    (h : ({ m with moved := false }.begin none mark).capture = (signal, m')) :
    m.step depth = some (signal,
      if signal = .proceed then { m' with bureaucrat := m'.bureaucrat + 1 } else m') := by
  have hmoved : m'.moved = false := by
    have hstill := (still_capture ({ m with moved := false }.begin none mark)).moved
    rwa [h] at hstill
  rw [step, hmark]
  dsimp only
  rw [execute_of_punctuation hcell, h, Option.map_some]
  cases signal with
  | proceed => simp [hmoved]
  | stop reason => rfl

/-- A step on a punctuation mark, with `begun` the machine that has noted its execution.

    At the end of the tape there is a remark, and the bureaucrat moves on.  Otherwise the rung after
    the bureaucrat is the name of a block, which ends at the least index behind the name where there
    is a punctuation mark or the name said again.

    The mark leaves the bureaucrat there, and the step moves it on by one, so that the rung at the
    end is not executed.  If the name is a variable, it takes the rungs between, and if it is not, no
    variable changes.  If the block does not end, the run does, with the bureaucrat behind the last
    rung and with no variable changed. -/
theorem capture_is_exact {m : Machine} {mark : Rung} (hmark : m.tape[m.bureaucrat]? = some mark)
    (hcell : mark.cell = .punctuation) (depth : Nat) :
    let begun := { m with moved := false }.begin none mark
    (m.tape.length ≤ m.bureaucrat + 1 → m.step depth = some (.proceed,
      { begun.notice .lastPunctuation with bureaucrat := m.bureaucrat + 1 })) ∧
    ∀ name, m.tape[m.bureaucrat + 1]? = some name →
      (∀ last, IsLeast (m.terminators name) last →
        (∀ variableName, name.variableName? = some variableName →
          ∃ vars : Variables,
            (∀ other, vars.get? other =
              if variableName = other then some (m.vars.capturing variableName name.element
                (m.tape.extract (m.bureaucrat + 2) last))
              else m.vars.get? other) ∧
            execute depth none mark { m with moved := false } =
              some (.proceed, { begun with bureaucrat := last, vars }) ∧
            m.step depth = some (.proceed, { begun with bureaucrat := last + 1, vars })) ∧
        (name.variableName? = none →
          execute depth none mark { m with moved := false } = some (.proceed,
            { begun.notice (.namelessBlock name.name) with bureaucrat := last }) ∧
          m.step depth = some (.proceed,
            { begun.notice (.namelessBlock name.name) with bureaucrat := last + 1 }))) ∧
      (m.terminators name = ∅ → ∃ m',
        m.step depth = some (.stop .fatal, m') ∧
        m'.bureaucrat = m.tape.length ∧ m'.tape = m.tape ∧ m'.vars = m.vars ∧
        ∀ (m₀ : Machine) (program : List Rung) (n : Nat), m₀.pointAt program n = .ready m →
          ∃ fuel, m₀.run fuel program = some (.fatal, m')) := by
  intro begun
  have hstep : ∀ {signal m'}, begun.capture = (signal, m') → m.step depth = some (signal,
      if signal = .proceed then { m' with bureaucrat := m'.bureaucrat + 1 } else m') :=
    fun h => step_of_punctuation hmark hcell depth h
  refine ⟨fun hlast => hstep (capture_of_length_le (m := begun) hlast), fun name hname =>
    ⟨fun last hleast => ?_, fun hempty => ?_⟩⟩
  · -- The block ends: the mark leaves the bureaucrat at the end, and the step passes it.
    have hcapture : begun.capture = (.proceed, begun.captured name last) :=
      capture_of_isLeast (m := begun) hname hleast
    have hexecute := execute_of_punctuation hcell depth none { m with moved := false }
    rw [hcapture] at hexecute
    -- The name is a variable that takes the block, or it is none and there is a remark.
    refine ⟨fun variableName hvariable => ?_, fun hvariable => ?_⟩
    · have hcaptured : begun.captured name last = { begun with
          bureaucrat := last
          vars := m.vars.bind variableName (m.tape.extract (m.bureaucrat + 2) last)
            name.element } := by
        rw [captured, hvariable]
        rfl
      rw [hcaptured] at hcapture hexecute
      exact ⟨_, fun other => m.vars.get?_bind _ _ _ _, hexecute, hstep hcapture⟩
    · have hcaptured : begun.captured name last =
          { begun.notice (.namelessBlock name.name) with bureaucrat := last } := by
        rw [captured, hvariable]
      rw [hcaptured] at hcapture hexecute
      exact ⟨hexecute, hstep hcapture⟩
  · -- The block does not end, and giving up is no step that moves on.
    have hfatal : m.step depth = some (.stop .fatal, (begun.fail .endlessBlock).2) :=
      hstep (capture_of_terminators_eq_empty (m := begun) hname hempty)
    refine ⟨_, hfatal, rfl, rfl, rfl, fun m₀ program n hpoint => exists_run_eq_some_iff.mpr ?_⟩
    -- The run comes from this step to its end.
    obtain ⟨k, hk⟩ := reaches_of_step hfatal
    exact ⟨n + k, by rw [pointAt_add, hpoint, hk]; rfl⟩

/-- A block of one rung, between a name and the name said again. -/
def quotation : List Rung :=
  let rung (name : String) (cell : Cell) : Rung :=
    { position := .input 0, name, element := .metal, cell }
  [rung "." .punctuation, rung "moon" (.variable "moon"), rung "one" (.literal 1.0),
    rung "moon" (.variable "moon")]

/-- The block is captured, and without the rung that ends it the run ends. -/
theorem capture_is_exact_quotation :
    let m : Machine := { tape := quotation, generator := .ofSeed 0 }
    let unended : Machine := { tape := quotation.take 3, generator := .ofSeed 0 }
    (∃ m', m.step 0 = some (.proceed, m') ∧ m'.bureaucrat = 4 ∧
      m'.vars.get? "moon" = some { element := .metal, binding := .block [quotation[2]] }) ∧
    ∃ m', unended.step 0 = some (.stop .fatal, m') ∧ m'.bureaucrat = 3 ∧
      ∃ fuel, unended.run fuel unended.tape = some (.fatal, m') := by
  intro m unended
  constructor
  · have hends : m.EndsAt quotation[1] 3 :=
      ⟨rfl, by decide, by decide, ⟨_, rfl, by decide⟩, by decide⟩
    have hmark : m.tape[m.bureaucrat]? = some quotation[0] := rfl
    obtain ⟨-, hblock⟩ := capture_is_exact hmark rfl 0
    obtain ⟨vars, hvars, -, hstep⟩ :=
      ((hblock quotation[1] rfl).1 3 ((endsAt_iff_isLeast rfl).mp hends)).1 "moon" rfl
    refine ⟨_, hstep, rfl, ?_⟩
    rw [hvars, if_pos rfl]
    decide
  · have hempty : unended.terminators quotation[1] = ∅ := by
      refine Set.eq_empty_iff_forall_notMem.mpr fun t ht => ?_
      obtain ⟨hle, rung, hrung, hends⟩ := mem_terminators_iff.mp ht
      -- The only rung behind the name is the last one.
      have hlt : t < 3 := (List.getElem?_eq_some_iff.mp hrung).1
      obtain rfl : t = 2 := Nat.le_antisymm (Nat.le_of_lt_succ hlt) hle
      obtain rfl := Option.some.inj hrung
      exact absurd hends (by decide)
    have hmark : unended.tape[unended.bureaucrat]? = some quotation[0] := rfl
    obtain ⟨-, hblock⟩ := capture_is_exact hmark rfl 0
    obtain ⟨m', hstep, hend, -, -, hrun⟩ := (hblock quotation[1] rfl).2 hempty
    exact ⟨m', hstep, hend, hrun unended _ 0 rfl⟩

end Machine

end Verse
