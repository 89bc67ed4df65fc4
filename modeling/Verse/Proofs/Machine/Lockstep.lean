import Mathlib.Data.List.Forall2
import Verse.Proofs.Machine.Agreement
import Verse.Proofs.Machine.Point

/-!
# Two runs in step

If two machines agree on what every rung does, their runs go through the same blocks at the same
points, rung by rung.  What relates the machines at the start relates them at every point, and
if the one run ends, so does the other, for the same reason.

* `Lockstep`               what is asked of a relation between machines
* `Point.Pairs.next`       related points are followed by related ones
* `Lockstep.pointAt`       so they are throughout two runs
* `Lockstep.run`           and at their ends
-/

namespace Verse

/-- Of two related values, both are there or neither is. -/
theorem option_rel_cases {α : Type} {S : α → α → Prop} {a a' : Option α}
    (h : Option.Rel S a a') :
    (a = none ∧ a' = none) ∨ ∃ x x', a = some x ∧ a' = some x' ∧ S x x' := by
  cases h with
  | none => exact .inl ⟨rfl, rfl⟩
  | @some x x' h => exact .inr ⟨x, x', rfl, rfl, h⟩

/-- A relation between machines, and one between rungs, that runs keep up.  Related rungs have
    one cell, related machines execute related rungs, and they are related again after that. -/
structure Lockstep (R : Machine → Machine → Prop) (S : Rung → Rung → Prop) : Prop where
  agreement : Machine.Agreement R
  tape {m m' : Machine} (h : R m m') (index : Nat) : Option.Rel S m.tape[index]? m'.tape[index]?
  block {m m' : Machine} (h : R m m') (name : String) :
    Option.Rel (List.Forall₂ S) (m.vars.block? name) (m'.vars.block? name)
  cell {rung rung' : Rung} (h : S rung rung') : rung'.cell = rung.cell
  begin {m m' : Machine} {rung rung' : Rung} (h : R m m') (hrung : S rung rung')
    (frame : Option Frame) : R (m.begin frame rung) (m'.begin frame rung')
  act {m m' : Machine} {rung rung' : Rung} (h : R m m') (hrung : S rung rung') :
    Machine.Agrees R (m.act rung) (m'.act rung')

/-- The same block in progress, with related rungs. -/
inductive Call.Pairs (S : Rung → Rung → Prop) : Call → Call → Prop
  | intro (name : String) (index : Nat) {rest rest' : List Rung} (h : List.Forall₂ S rest rest') :
    Pairs S ⟨name, index, rest⟩ ⟨name, index, rest'⟩

/-- Two runs at the same point, with related machines. -/
inductive Point.Pairs (R : Machine → Machine → Prop) (S : Rung → Rung → Prop) :
    Point → Point → Prop
  | ready {m m' : Machine} (h : R m m') : Pairs R S (.ready m) (.ready m')
  | within {calls calls' : List Call} {m m' : Machine}
      (hcalls : List.Forall₂ (Call.Pairs S) calls calls') (h : R m m') :
      Pairs R S (.within calls m) (.within calls' m')
  | ended (reason : StopReason) {m m' : Machine} (h : R m m') :
      Pairs R S (.ended reason m) (.ended reason m')

variable {R : Machine → Machine → Prop} {S : Rung → Rung → Prop}

namespace Point

open Machine

/-- At related points the machines are related. -/
theorem Pairs.machine {p p' : Point} (h : Pairs R S p p') : R p.machine p'.machine := by
  cases h with
  | ready h | within _ h | ended _ h => exact h

/-- Acts that agree settle at related points. -/
theorem pairs_settle {calls calls' : List Call} {result result' : Signal × Machine}
    (hcalls : List.Forall₂ (Call.Pairs S) calls calls') (h : Agrees R result result') :
    Pairs R S (settle calls result) (settle calls' result') := by
  obtain ⟨signal, m⟩ := result
  obtain ⟨signal', m'⟩ := result'
  obtain ⟨rfl, hm⟩ := h
  cases signal' with
  | proceed => exact .within hcalls hm
  | stop reason => exact .ended reason hm

end Point

namespace Lockstep

open Machine Point

variable (hL : Lockstep R S)

include hL

/-- Related rungs call one block, with related rungs in it. -/
theorem called? {m m' : Machine} {rung rung' : Rung} (h : R m m') (hrung : S rung rung') :
    List.Forall₂ (Call.Pairs S) (m.called? rung).toList (m'.called? rung').toList := by
  have hname : rung'.variableName? = rung.variableName? := by
    rw [Rung.variableName?, Rung.variableName?, hL.cell hrung]
  rw [Machine.called?, Machine.called?, hname]
  cases rung.variableName? with
  | none => exact .nil
  | some name =>
    simp only [Option.bind_some]
    obtain ⟨hm, hm'⟩ | ⟨rest, rest', hm, hm', hrest⟩ := option_rel_cases (hL.block h name) <;>
      rw [hm, hm']
    · exact .nil
    · exact .cons (.intro name 0 hrest) .nil

/-- Related rungs that are entered lead to related points. -/
theorem enter {m m' : Machine} {rung rung' : Rung} {calls calls' : List Call} (h : R m m')
    (hrung : S rung rung') (hcalls : List.Forall₂ (Call.Pairs S) calls calls')
    (frame : Option Frame) :
    Pairs R S (Point.enter calls frame rung m) (Point.enter calls' frame rung' m') := by
  have hbegin := hL.begin h hrung frame
  -- The block that is called, if any, comes in front of those in progress on both sides.
  exact pairs_settle (List.rel_append (hL.called? hbegin hrung) hcalls) (hL.act hbegin hrung)

/-- From point to point the runs keep step. -/
theorem next {p p' : Point} (h : Pairs R S p p') : Pairs R S p.next p'.next := by
  have hR := hL.agreement
  cases h with
  | @ready m m' h =>
    rw [Point.next, Point.next, hR.bureaucrat h]
    obtain ⟨hm, hm'⟩ | ⟨rung, rung', hm, hm', hrung⟩ :=
      option_rel_cases (hL.tape h m.bureaucrat) <;> rw [hm, hm']
    · -- Both bureaucrats have run off their tapes.
      exact .ended .ranOffEnd h
    · exact hL.enter (hR.setMoved h false) hrung .nil none
  | @within calls calls' m m' hcalls h =>
    cases hcalls with
    | nil =>
      refine .ready ?_
      -- The step is over.  Either both bureaucrats have been moved by the rung, or neither.
      by_cases hmoved : m.moved = true
      · rw [if_pos hmoved, if_pos ((hR.moved h).trans hmoved)]
        exact h
      · rw [if_neg hmoved, if_neg (by rwa [hR.moved h]), hR.bureaucrat h]
        exact hR.setBureaucrat h (m.bureaucrat + 1)
    | cons hcall hcalls =>
      obtain ⟨name, index, hrest⟩ := hcall
      cases hrest with
      | nil => exact .within hcalls h
      | cons hrung hrest =>
        -- The next rung of the block is executed, with the rest of it still to come.
        exact hL.enter h hrung (.cons (.intro name (index + 1) hrest) hcalls) (some ⟨name, index⟩)
  | ended reason h => exact .ended reason h

variable {m m' : Machine} {program program' : List Rung}

/-- Runs that start with related machines keep step at every point. -/
theorem pointAt (h : R (m.start program) (m'.start program')) (n : Nat) :
    Pairs R S (m.pointAt program n) (m'.pointAt program' n) := by
  induction n with
  | zero => exact .ready h
  | succ n ih =>
    rw [pointAt_succ, pointAt_succ]
    exact hL.next ih

/-- If the one run ends, the other one does too, and it can only end in the same way. -/
theorem run (h : R (m.start program) (m'.start program')) {fuel : Nat} {reason : StopReason}
    {left : Machine} (hrun : m.run fuel program = some (reason, left)) :
    ∃ left', R left left' ∧ (∃ fuel', m'.run fuel' program' = some (reason, left')) ∧
      ∀ fuel' result, m'.run fuel' program' = some result → result = (reason, left') := by
  obtain ⟨n, hn⟩ := exists_pointAt_of_run hrun
  have hpairs := hL.pointAt h n
  rw [hn] at hpairs
  -- At the point where the one run ends, the other one can only have ended too.
  obtain ⟨left', hn', hleft⟩ : ∃ left', m'.pointAt program' n = .ended reason left' ∧
      R left left' := by
    cases hp : m'.pointAt program' n with
    | ready _ | within _ _ => rw [hp] at hpairs; cases hpairs
    | ended reason' left' =>
      rw [hp] at hpairs
      cases hpairs with
      | ended _ hleft => exact ⟨left', rfl, hleft⟩
  obtain ⟨fuel', hrun'⟩ := exists_run_eq_some_iff.mpr ⟨n, hn'⟩
  exact ⟨left', hleft, ⟨fuel', hrun'⟩, fun _ _ hother => run_unique hother hrun'⟩

end Lockstep

end Verse
