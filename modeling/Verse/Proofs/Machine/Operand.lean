import Verse.Machine.Basic

/-!
# What reading a rung does

Reading a rung draws at most one random number and leaves everything else as it is.  A
random number lies in the range of its command, so that it is never zero.

* `Generator.draw_mem`    a draw stays within its bounds
* `readAt_cases`          reading changes the generator only
* `readAt_eq_some`        where a number comes from
-/

namespace Verse

/-! ## Draws -/

namespace Generator

/-- A draw below a positive bound stays below it. -/
theorem drawBelow_lt {range : Nat} (hr : 0 < range) (patience : Nat) (g : Generator) :
    (drawBelow range patience g).1 < range := by
  induction patience generalizing g with
  | zero => exact hr
  | succ patience ih =>
    rw [drawBelow]
    have hword : g.next.1 < UInt32.size := (g.word g.used).toNat_lt_size
    dsimp only
    split
    -- The product of two bounded numbers is divided by the greater bound.
    · exact Nat.div_lt_of_lt_mul (Nat.mul_lt_mul_of_pos_right hword hr)
    · exact ih _

/-- A draw stays within its bounds. -/
theorem draw_mem {low high : Nat} (h : low ≤ high) (g : Generator) :
    low ≤ (g.draw low high).1 ∧ (g.draw low high).1 ≤ high := by
  have := drawBelow_lt (show 0 < high - low + 1 by omega) 4096 g
  simp only [draw]
  omega

end Generator

/-- The numbers that a command can be read as are positive and small. -/
theorem Command.range?_bounds {command : Command} {low high : Nat}
    (h : command.range? = some (low, high)) : 0 < low ∧ low ≤ high ∧ high ≤ 1000 := by
  cases command <;> simp only [range?, Option.some.injEq, Prod.mk.injEq, reduceCtorEq] at h <;>
    obtain ⟨rfl, rfl⟩ := h <;> decide

namespace Machine

/-! ## Reading -/

/-- Reading a cell changes the generator only. -/
theorem exists_generator_read (m : Machine) (cell : Cell) :
    ∃ generator, (m.read cell).2 = { m with generator } := by
  cases cell with
  | command command =>
    cases h : command.range? with
    | none => exact ⟨m.generator, by simp only [read, h]⟩
    | some range => exact ⟨(m.generator.draw range.1 range.2).2, by simp only [read, h]⟩
  | _ => exact ⟨m.generator, rfl⟩

/-- Reading a rung changes the generator only, and finds a number only if there is a rung. -/
theorem readAt_cases (m : Machine) (index : Nat) :
    ∃ generator, m.readAt index = (none, { m with generator }) ∨
      ∃ value rung, m.readAt index = (some value, { m with generator }) ∧
        m.tape[index]? = some rung := by
  unfold readAt
  cases hrung : m.tape[index]? with
  | none => exact ⟨m.generator, .inl rfl⟩
  | some rung =>
    obtain ⟨generator, hgenerator⟩ := m.exists_generator_read rung.cell
    refine ⟨generator, ?_⟩
    dsimp only
    rw [← hgenerator]
    cases hvalue : (m.read rung.cell).1 with
    | none => exact .inl (Prod.ext hvalue rfl)
    | some value => exact .inr ⟨value, rung, Prod.ext hvalue rfl, rfl⟩

/-- Whatever has been read, the generator is all that may have changed. -/
theorem exists_generator_readAt (m : Machine) (index : Nat) :
    ∃ generator, (m.readAt index).2 = { m with generator } := by
  obtain ⟨generator, h | ⟨value, rung, h, -⟩⟩ := m.readAt_cases index <;>
    exact ⟨generator, by rw [h]⟩

/-- A rung that has a number is a literal, a variable with a value, or a command that draws
    one from its range. -/
theorem readAt_eq_some {m : Machine} {index : Nat} {value : Float}
    (h : (m.readAt index).1 = some value) :
    ∃ rung, m.tape[index]? = some rung ∧
      (rung.cell = .literal value ∨
        (∃ name, rung.cell = .variable name ∧ m.vars.value? name = some value) ∨
        ∃ command n, rung.cell = .command command ∧ value = Float.ofNat n ∧ 0 < n ∧ n ≤ 1000) := by
  rw [readAt] at h
  split at h
  -- There is no rung, so there is no number.
  case h_2 => cases h
  case h_1 rung hrung =>
    refine ⟨rung, hrung, ?_⟩
    -- Only three kinds of cells have a number, each in its own way.
    rw [read.eq_def] at h
    match hcell : rung.cell, h with
    | .literal v, h => exact .inl (by rw [Option.some.inj h])
    | .variable name, h => exact .inr (.inl ⟨name, rfl, h⟩)
    | .command command, h =>
      cases hrange : command.range? with
      | none =>
        simp only [hrange] at h
        cases h
      | some range =>
        simp only [hrange] at h
        obtain ⟨hpos, hle, hmax⟩ := Command.range?_bounds hrange
        have hdraw := Generator.draw_mem hle m.generator
        exact .inr (.inr ⟨command, _, rfl, (Option.some.inj h).symm, by omega, by omega⟩)

end Machine

end Verse
