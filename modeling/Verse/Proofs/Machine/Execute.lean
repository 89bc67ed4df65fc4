import Verse.Machine.Run
import Verse.Proofs.Rung

/-!
# Executing a rung

Executing a rung is an act of the rung itself, or else a call of the block that the rung
names.  How deep calls may nest, and how many steps a run may take, does not show in what
becomes of the machine: a run that ends with some fuel ends in the same way with more.

* `execute_of_none`, `execute_succ_of_some`               an act or a call
* `execute_mono`, `step_mono`, `loop_mono`, `run_mono`    more fuel keeps the result
* `run_unique`                                            two runs that end are the same
-/

namespace Verse

/-- A block in progress: its variable, and the rungs of it that are still to be executed, the
    first of them at `index`. -/
structure Call where
  name : String
  index : Nat
  rest : List Rung

namespace Machine

/-- What a rung does by itself.  A variable does nothing: what there is to do is in its
    block. -/
def act (m : Machine) (rung : Rung) : Signal × Machine :=
  match rung.cell with
  | .literal _ | .variable _ => (.proceed, m)
  | .command command => m.dispatch command
  | .invalid code => (.proceed, m.notice (.invalidCommand rung.name code))
  | .punctuation => m.capture

/-- The block that a rung calls, if it is a variable that has one. -/
def called? (m : Machine) (rung : Rung) : Option Call :=
  rung.variableName?.bind fun name => (m.vars.block? name).map fun block => ⟨name, 0, block⟩

/-- A call comes from a variable with a block, and starts at its first rung. -/
theorem called?_eq_some {m : Machine} {rung : Rung} {call : Call}
    (h : m.called? rung = some call) :
    ∃ name block, rung.cell = .variable name ∧ m.vars.block? name = some block ∧
      call = ⟨name, 0, block⟩ := by
  obtain ⟨name, hname, h⟩ := Option.bind_eq_some_iff.mp h
  obtain ⟨block, hblock, h⟩ := Option.map_eq_some_iff.mp h
  exact ⟨name, block, Rung.variableName?_eq_some hname, hblock, h.symm⟩

/-- A rung that calls a block does nothing by itself. -/
theorem act_of_called? {m : Machine} {rung : Rung} {call : Call}
    (h : m.called? rung = some call) : m.act rung = (.proceed, m) := by
  obtain ⟨name, block, hcell, -⟩ := called?_eq_some h
  rw [act, hcell]

/-- A rung is executed by its own act, or by performing the block that it calls. -/
theorem execute_eq (depth : Nat) (frame : Option Frame) (rung : Rung) (m : Machine) :
    execute depth frame rung m =
      match (m.begin frame rung).called? rung, depth with
      | none, _ => some ((m.begin frame rung).act rung)
      | some _, 0 => none
      | some call, depth + 1 =>
        perform (execute depth) call.name call.index call.rest (m.begin frame rung) := by
  -- Of the five kinds of rungs, only variables can call.
  rw [execute.eq_def, called?, act, Rung.variableName?]
  dsimp only
  obtain _ | _ | name | _ | _ := rung.cell
  · rfl
  · rfl
  · cases hblock : (m.begin frame rung).vars.block? name with
    | none => simp only [Option.bind_some, hblock, Option.map_none]
    | some block => cases depth <;> simp only [Option.bind_some, hblock, Option.map_some]
  · rfl
  · rfl

section

variable {frame : Option Frame} {rung : Rung} {m : Machine} {call : Call}

/-- A rung that calls nothing acts by itself, whatever the depth. -/
theorem execute_of_none (h : (m.begin frame rung).called? rung = none) (depth : Nat) :
    execute depth frame rung m = some ((m.begin frame rung).act rung) := by
  rw [execute_eq, h]

/-- A call needs depth. -/
theorem execute_zero_of_some (h : (m.begin frame rung).called? rung = some call) :
    execute 0 frame rung m = none := by
  rw [execute_eq, h]

/-- A call performs its block one level further down. -/
theorem execute_succ_of_some (h : (m.begin frame rung).called? rung = some call) (depth : Nat) :
    execute (depth + 1) frame rung m =
      perform (execute depth) call.name call.index call.rest (m.begin frame rung) := by
  rw [execute_eq, h]

end

/-! ## More fuel -/

/-- Whatever executes rungs the way another does performs blocks the way it does. -/
theorem perform_mono {e e' : Option Frame → Rung → Machine → Option (Signal × Machine)}
    (he : ∀ frame rung m result, e frame rung m = some result → e' frame rung m = some result)
    {name : String} {index : Nat} {rungs : List Rung} {m : Machine} {result : Signal × Machine}
    (h : perform e name index rungs m = some result) :
    perform e' name index rungs m = some result := by
  induction rungs generalizing index m with
  | nil => exact h
  | cons rung rest ih =>
    rw [perform] at h ⊢
    cases hrung : e (some ⟨name, index⟩) rung m with
    | none =>
      rw [hrung] at h
      cases h
    | some first =>
      rw [he _ _ _ _ hrung]
      rw [hrung] at h
      obtain ⟨signal, m'⟩ := first
      cases signal with
      | proceed => exact ih h
      | stop reason => exact h

/-- Blocks that do not nest deeper than allowed do not mind if they may. -/
theorem execute_succ {depth : Nat} {frame : Option Frame} {rung : Rung} {m : Machine}
    {result : Signal × Machine} (h : execute depth frame rung m = some result) :
    execute (depth + 1) frame rung m = some result := by
  induction depth generalizing frame rung m result with
  | zero =>
    cases hcall : (m.begin frame rung).called? rung with
    | none => rwa [execute_of_none hcall] at h ⊢
    | some call =>
      rw [execute_zero_of_some hcall] at h
      cases h
  | succ depth ih =>
    cases hcall : (m.begin frame rung).called? rung with
    | none => rwa [execute_of_none hcall] at h ⊢
    | some call =>
      -- The block is performed one level down, where the induction hypothesis applies.
      rw [execute_succ_of_some hcall] at h ⊢
      exact perform_mono (fun _ _ _ _ => ih) h

/-- More depth does not change what a rung does. -/
theorem execute_mono {depth depth' : Nat} (hle : depth ≤ depth') {frame : Option Frame}
    {rung : Rung} {m : Machine} {result : Signal × Machine}
    (h : execute depth frame rung m = some result) :
    execute depth' frame rung m = some result := by
  induction hle with
  | refl => exact h
  | step _ ih => exact execute_succ ih

/-- More depth does not change what a block does. -/
theorem perform_execute_mono {depth depth' : Nat} (hle : depth ≤ depth') {name : String}
    {index : Nat} {rungs : List Rung} {m : Machine} {result : Signal × Machine}
    (h : perform (execute depth) name index rungs m = some result) :
    perform (execute depth') name index rungs m = some result :=
  perform_mono (fun _ _ _ _ => execute_mono hle) h

/-- More depth does not change what a step does. -/
theorem step_mono {depth depth' : Nat} (hle : depth ≤ depth') {m : Machine}
    {result : Signal × Machine} (h : m.step depth = some result) :
    m.step depth' = some result := by
  rw [step] at h ⊢
  cases hrung : m.tape[m.bureaucrat]? with
  | none => simpa only [hrung] using h
  | some rung =>
    simp only [hrung] at h ⊢
    obtain ⟨first, hfirst, hresult⟩ := Option.map_eq_some_iff.mp h
    rw [execute_mono hle hfirst, ← hresult]
    rfl

/-- More fuel does not change what a loop ends with. -/
theorem loop_mono {depth depth' limit limit' : Nat} (hdepth : depth ≤ depth')
    (hlimit : limit ≤ limit') {m : Machine} {result : StopReason × Machine}
    (h : loop depth limit m = some result) : loop depth' limit' m = some result := by
  induction limit generalizing limit' m with
  | zero => cases h
  | succ limit ih =>
    -- A loop that has ended has had fuel for a step, and so has the other.
    obtain ⟨limit', rfl⟩ : ∃ k, limit' = k + 1 := ⟨limit' - 1, by omega⟩
    rw [loop] at h ⊢
    cases hstep : m.step depth with
    | none =>
      rw [hstep] at h
      cases h
    | some first =>
      rw [step_mono hdepth hstep]
      rw [hstep] at h
      obtain ⟨signal, m'⟩ := first
      cases signal with
      | proceed => exact ih (by omega) h
      | stop reason => exact h

/-- More fuel does not change what a run ends with. -/
theorem run_mono {fuel fuel' : Nat} (hle : fuel ≤ fuel') {m : Machine} {program : List Rung}
    {result : StopReason × Machine} (h : m.run fuel program = some result) :
    m.run fuel' program = some result :=
  loop_mono hle hle h

/-- However much fuel two runs of a program have, they end alike if they end. -/
theorem run_unique {fuel fuel' : Nat} {m : Machine} {program : List Rung}
    {result result' : StopReason × Machine} (h : m.run fuel program = some result)
    (h' : m.run fuel' program = some result') : result = result' :=
  Option.some.inj ((run_mono (Nat.le_max_left fuel fuel') h).symm.trans
    (run_mono (Nat.le_max_right fuel fuel') h'))

end Machine

end Verse
