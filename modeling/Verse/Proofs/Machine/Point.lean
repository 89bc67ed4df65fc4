import Mathlib.Logic.Function.Iterate
import Verse.Proofs.Machine.Execute

/-!
# The points of a run

Between the executions of any two rungs, at whatever depth of blocks, a run is at a point.
Every point has a next one, so a run is followed point by point, whether it ends or not, and
a fact about all points of a run is a fact about everything that it comes through.

* `Point.next`              the next point
* `Machine.pointAt`         the points of a run, counted from its start
* `reaches_of_execute`      executing a rung leads from point to point
* `exists_run_eq_some_iff`  the ends of runs are the ends that points come to
-/

namespace Verse

/-- A point of a run, between the executions of two rungs. -/
inductive Point where
  /-- Between two steps. -/
  | ready (m : Machine)
  /-- In the middle of a step, with the blocks in progress, the innermost first. -/
  | within (calls : List Call) (m : Machine)
  /-- At the end of the run. -/
  | ended (reason : StopReason) (m : Machine)

namespace Point

/-- The machine at a point. -/
def machine : Point → Machine
  | .ready m | .within _ m | .ended _ m => m

/-- The blocks in progress at a point, the innermost first. -/
def calls : Point → List Call
  | .within calls _ => calls
  | .ready _ | .ended _ _ => []

/-- The point after a rung has been executed. -/
def settle (calls : List Call) : Signal × Machine → Point
  | (.proceed, m) => .within calls m
  | (.stop reason, m) => .ended reason m

/-- Settling does not change the machine. -/
theorem machine_settle (calls : List Call) (result : Signal × Machine) :
    (settle calls result).machine = result.2 := by
  obtain ⟨signal, m⟩ := result
  cases signal <;> rfl

/-- The point after a step. -/
def ofStep : Signal × Machine → Point
  | (.proceed, m) => .ready m
  | (.stop reason, m) => .ended reason m

/-- The point after a rung has acted.  If it has called a block, that is in progress now. -/
def enter (calls : List Call) (frame : Option Frame) (rung : Rung) (m : Machine) : Point :=
  settle (((m.begin frame rung).called? rung).toList ++ calls) ((m.begin frame rung).act rung)

/-- The rung that is executed next, with its frame and the machine that executes it. -/
def upcoming? : Point → Option (Option Frame × Rung × Machine)
  | .ready m => m.tape[m.bureaucrat]?.map fun rung => (none, rung, { m with moved := false })
  | .within (⟨name, index, rung :: _⟩ :: _) m => some (some ⟨name, index⟩, rung, m)
  | .within _ _ | .ended _ _ => none

/-- The next point.  The end of a run is followed by itself. -/
def next : Point → Point
  | .ready m =>
    match m.tape[m.bureaucrat]? with
    | none => .ended .ranOffEnd m
    | some rung => enter [] none rung { m with moved := false }
  | .within [] m => .ready (if m.moved then m else { m with bureaucrat := m.bureaucrat + 1 })
  | .within (⟨_, _, []⟩ :: calls) m => .within calls m
  | .within (⟨name, index, rung :: rest⟩ :: calls) m =>
    enter (⟨name, index + 1, rest⟩ :: calls) (some ⟨name, index⟩) rung m
  | .ended reason m => .ended reason m

/-- Cases on a point as `next` tells them apart. -/
@[elab_as_elim]
theorem shape_cases {motive : Point → Prop} (ready : ∀ m, motive (.ready m))
    (stepped : ∀ m, motive (.within [] m))
    (returning : ∀ name index calls m, motive (.within (⟨name, index, []⟩ :: calls) m))
    (inBlock : ∀ name index rung rest calls m,
      motive (.within (⟨name, index, rung :: rest⟩ :: calls) m))
    (ended : ∀ reason m, motive (.ended reason m)) (p : Point) : motive p := by
  cases p with
  | ready m => exact ready m
  | within calls m =>
    cases calls with
    | nil => exact stepped m
    | cons call calls =>
      obtain ⟨name, index, rest⟩ := call
      cases rest with
      | nil => exact returning name index calls m
      | cons rung rest => exact inBlock name index rung rest calls m
  | ended reason m => exact ended reason m

/-- A point goes on by executing the upcoming rung.  If there is none, no more than the
    bureaucrat moves. -/
theorem next_cases (p : Point) :
    (p.upcoming? = none ∧ ∃ bureaucrat, p.next.machine = { p.machine with bureaucrat }) ∨
    ∃ calls frame rung moved, p.upcoming? = some (frame, rung, { p.machine with moved }) ∧
      p.next = enter calls frame rung { p.machine with moved } := by
  cases p using shape_cases with
  | ready m =>
    rw [next, upcoming?]
    cases hrung : m.tape[m.bureaucrat]? with
    | none => exact .inl ⟨rfl, _, rfl⟩
    | some rung => exact .inr ⟨[], none, rung, false, rfl, rfl⟩
  | stepped m =>
    refine .inl ⟨rfl, ?_⟩
    rw [next]
    split
    · exact ⟨_, rfl⟩
    · exact ⟨_, rfl⟩
  | returning _ _ _ _ | ended _ _ => exact .inl ⟨rfl, _, rfl⟩
  | inBlock _ _ rung _ _ m => exact .inr ⟨_, _, rung, m.moved, rfl, rfl⟩

/-- One point comes to another in the course of a run. -/
def Reaches (p q : Point) : Prop :=
  ∃ n, next^[n] p = q

/-- Every point reaches itself. -/
theorem Reaches.refl (p : Point) : p.Reaches p := ⟨0, rfl⟩

/-- What is reached from what is reached is reached. -/
theorem Reaches.trans {p q r : Point} : p.Reaches q → q.Reaches r → p.Reaches r
  | ⟨n, hn⟩, ⟨k, hk⟩ => ⟨k + n, by rw [Function.iterate_add_apply, hn, hk]⟩

/-- Going on with the next point. -/
theorem Reaches.head {p q : Point} : p.next.Reaches q → p.Reaches q
  | ⟨n, hn⟩ => ⟨n + 1, hn⟩

/-- Nothing comes after the end. -/
theorem iterate_next_ended (reason : StopReason) (m : Machine) (n : Nat) :
    next^[n] (.ended reason m) = .ended reason m :=
  Function.iterate_fixed rfl n

end Point

namespace Machine

open Point

/-- The points of a run of a program, counted from its start. -/
def pointAt (m : Machine) (program : List Rung) (n : Nat) : Point :=
  Point.next^[n] (.ready (m.start program))

/-- The next point of a run. -/
theorem pointAt_succ (m : Machine) (program : List Rung) (n : Nat) :
    m.pointAt program (n + 1) = (m.pointAt program n).next :=
  Function.iterate_succ_apply' _ _ _

/-- A run goes on from any of its points. -/
theorem pointAt_add (m : Machine) (program : List Rung) (n k : Nat) :
    m.pointAt program (n + k) = Point.next^[k] (m.pointAt program n) := by
  rw [pointAt, pointAt, Nat.add_comm, Function.iterate_add_apply]

/-! ## From executions to points -/

/-- Performing a block leads from its first rung to the point after it, if executing a rung
    leads from point to point. -/
theorem reaches_of_perform {e : Option Frame → Rung → Machine → Option (Signal × Machine)}
    (he : ∀ frame rung m result calls, e frame rung m = some result →
      (enter calls frame rung m).Reaches (settle calls result))
    {name : String} {index : Nat} {rungs : List Rung} {m : Machine} {result : Signal × Machine}
    (h : perform e name index rungs m = some result) (calls : List Call) :
    (Point.within (⟨name, index, rungs⟩ :: calls) m).Reaches (settle calls result) := by
  induction rungs generalizing index m with
  -- The block is over, and the next point leaves it.
  | nil =>
    rw [perform, Option.some.injEq] at h
    rw [← h]
    exact .head (.refl _)
  | cons rung rest ih =>
    rw [perform] at h
    cases hrung : e (some ⟨name, index⟩) rung m with
    | none =>
      rw [hrung] at h
      cases h
    | some first =>
      have hfirst := he _ _ _ _ (⟨name, index + 1, rest⟩ :: calls) hrung
      rw [hrung] at h
      obtain ⟨signal, m'⟩ := first
      cases signal with
      -- The rest of the block is performed from where its first rung leaves off.
      | proceed => exact .head (hfirst.trans (ih h))
      | stop reason =>
        rw [← Option.some.inj h]
        exact .head hfirst

/-- A rung that calls no block is executed at the point where it acts. -/
theorem reaches_of_none {depth : Nat} {frame : Option Frame} {rung : Rung} {m : Machine}
    (hcall : (m.begin frame rung).called? rung = none) {result : Signal × Machine}
    (h : execute depth frame rung m = some result) (calls : List Call) :
    (enter calls frame rung m).Reaches (settle calls result) := by
  rw [execute_of_none hcall, Option.some.injEq] at h
  rw [enter, hcall, h]
  exact .refl _

/-- Executing a rung leads from the point where it acts to the point after it. -/
theorem reaches_of_execute {depth : Nat} {frame : Option Frame} {rung : Rung} {m : Machine}
    {result : Signal × Machine} (h : execute depth frame rung m = some result)
    (calls : List Call) : (enter calls frame rung m).Reaches (settle calls result) := by
  induction depth generalizing frame rung m result calls with
  | zero =>
    cases hcall : (m.begin frame rung).called? rung with
    | none => exact reaches_of_none hcall h calls
    | some call =>
      rw [execute_zero_of_some hcall] at h
      cases h
  | succ depth ih =>
    cases hcall : (m.begin frame rung).called? rung with
    | none => exact reaches_of_none hcall h calls
    | some call =>
      -- The call does nothing by itself, and performing its block is what leads on.
      rw [execute_succ_of_some hcall] at h
      rw [enter, hcall, act_of_called? hcall]
      exact reaches_of_perform (fun _ _ _ _ calls h => ih h calls) h calls

/-- A step leads to the next step or to the end. -/
theorem reaches_of_step {depth : Nat} {m : Machine} {result : Signal × Machine}
    (h : m.step depth = some result) : (Point.ready m).Reaches (ofStep result) := by
  rw [step] at h
  refine .head ?_
  rw [next]
  cases hrung : m.tape[m.bureaucrat]? with
  | none =>
    simp only [hrung, Option.some.injEq] at h
    rw [← h]
    exact .refl _
  | some rung =>
    simp only [hrung] at h
    obtain ⟨⟨signal, m₁⟩, hexecute, hresult⟩ := Option.map_eq_some_iff.mp h
    rw [← hresult]
    have hreach := reaches_of_execute hexecute []
    cases signal with
    | proceed => exact hreach.trans (.head (.refl _))
    | stop reason => exact hreach

/-- A loop leads to its end. -/
theorem reaches_of_loop {depth limit : Nat} {m m' : Machine} {reason : StopReason}
    (h : loop depth limit m = some (reason, m')) :
    (Point.ready m).Reaches (.ended reason m') := by
  induction limit generalizing m with
  | zero => cases h
  | succ limit ih =>
    rw [loop] at h
    cases hstep : m.step depth with
    | none =>
      rw [hstep] at h
      cases h
    | some first =>
      rw [hstep] at h
      obtain ⟨signal, m₁⟩ := first
      cases signal with
      | proceed => exact (reaches_of_step hstep).trans (ih h)
      | stop reason' =>
        obtain ⟨rfl, rfl⟩ := Prod.mk.inj (Option.some.inj h)
        exact reaches_of_step hstep

/-! ## From points to executions

A run that comes to its end has executed every rung that it has entered: either the rung has
ended the run, or the run has come to the point after it, in fewer points. -/

/-- A rung that is entered on the way to the end is executed. -/
theorem execute_of_ended {n : Nat} {reason : StopReason} {m' : Machine}
    (ih : ∀ name index rungs calls m,
      next^[n] (.within (⟨name, index, rungs⟩ :: calls) m) = .ended reason m' →
        ∃ depth, perform (execute depth) name index rungs m = some (.stop reason, m') ∨
          ∃ m₁ k, k < n ∧ perform (execute depth) name index rungs m = some (.proceed, m₁) ∧
            next^[k] (.within calls m₁) = .ended reason m')
    {calls : List Call} {frame : Option Frame} {rung : Rung} {m : Machine}
    (h : next^[n] (enter calls frame rung m) = .ended reason m') :
    ∃ depth, execute depth frame rung m = some (.stop reason, m') ∨
      ∃ m₁ k, k ≤ n ∧ execute depth frame rung m = some (.proceed, m₁) ∧
        next^[k] (.within calls m₁) = .ended reason m' := by
  rw [enter] at h
  -- A rung that calls nothing is executed at any depth.
  cases hcall : (m.begin frame rung).called? rung with
  | none =>
    refine ⟨0, ?_⟩
    rw [hcall] at h
    simp only [execute_of_none hcall, Option.some.injEq]
    obtain ⟨⟨signal, m₁⟩, hact⟩ : ∃ result, (m.begin frame rung).act rung = result := ⟨_, rfl⟩
    rw [hact] at h ⊢
    cases signal with
    | proceed => exact .inr ⟨m₁, n, Nat.le_refl n, rfl, h⟩
    | stop reason' =>
      rw [settle, iterate_next_ended] at h
      obtain ⟨rfl, rfl⟩ := Point.ended.inj h
      exact .inl rfl
  | some call =>
    -- The rung has only called its block, which is performed in the points that follow.
    rw [hcall, act_of_called? hcall] at h
    obtain ⟨depth, hperform⟩ := ih call.name call.index call.rest calls _ h
    refine ⟨depth + 1, ?_⟩
    rw [execute_succ_of_some hcall]
    refine hperform.imp_right ?_
    rintro ⟨m₁, k, hk, hperform, hafter⟩
    exact ⟨m₁, k, Nat.le_of_lt hk, hperform, hafter⟩

/-- A block that is in progress on the way to the end is performed. -/
theorem perform_of_ended {n : Nat} {reason : StopReason} {m' : Machine} (name : String)
    (index : Nat) (rungs : List Rung) (calls : List Call) (m : Machine)
    (h : next^[n] (.within (⟨name, index, rungs⟩ :: calls) m) = .ended reason m') :
    ∃ depth, perform (execute depth) name index rungs m = some (.stop reason, m') ∨
      ∃ m₁ k, k < n ∧ perform (execute depth) name index rungs m = some (.proceed, m₁) ∧
        next^[k] (.within calls m₁) = .ended reason m' := by
  induction n using Nat.strongRecOn generalizing name index rungs calls m with
  | ind n ih =>
    cases n with
    | zero => cases h
    | succ n =>
      rw [Function.iterate_succ_apply] at h
      cases rungs with
      | nil => exact ⟨0, .inr ⟨m, n, Nat.lt_succ_self n, rfl, h⟩⟩
      | cons rung rest =>
        obtain ⟨depth, hstop | ⟨m₁, k, hk, hproceed, hafter⟩⟩ :=
          execute_of_ended (ih n (Nat.lt_succ_self n)) h
        · exact ⟨depth, .inl (by rw [perform, hstop])⟩
        · -- The point after the first rung is the one where the rest of the block is in progress.
          obtain ⟨depth', hrest⟩ := ih k (by omega) name (index + 1) rest calls m₁ hafter
          -- The first rung and the others may nest to different depths.
          have hfirst := execute_mono (Nat.le_max_left depth depth') hproceed
          refine ⟨max depth depth', ?_⟩
          rw [perform, hfirst]
          refine hrest.imp (perform_execute_mono (Nat.le_max_right depth depth')) ?_
          rintro ⟨m₂, k', hk', h, hend⟩
          exact ⟨m₂, k', by omega, perform_execute_mono (Nat.le_max_right depth depth') h, hend⟩

/-- Steps that come to the end are taken by a loop. -/
theorem loop_of_ended {n : Nat} {reason : StopReason} {m m' : Machine}
    (h : next^[n] (.ready m) = .ended reason m') :
    ∃ depth limit, loop depth limit m = some (reason, m') := by
  induction n using Nat.strongRecOn generalizing m with
  | ind n ih =>
    cases n with
    | zero => cases h
    | succ n =>
      rw [Function.iterate_succ_apply, next] at h
      cases hrung : m.tape[m.bureaucrat]? with
      -- The bureaucrat has run off the tape, and one step finds that out.
      | none =>
        simp only [hrung, iterate_next_ended] at h
        obtain ⟨rfl, rfl⟩ := Point.ended.inj h
        refine ⟨0, 1, ?_⟩
        rw [loop, step]
        simp only [hrung]
      | some rung =>
        simp only [hrung] at h
        obtain ⟨depth, hstop | ⟨m₁, k, hk, hproceed, hafter⟩⟩ :=
          execute_of_ended perform_of_ended h
        · -- The rung has ended the run, within one step.
          refine ⟨depth, 1, ?_⟩
          rw [loop, step]
          simp only [hrung, hstop, Option.map_some]
        · -- The rung has gone on, and what comes after its step is a shorter way to the end.
          cases k with
          | zero => cases hafter
          | succ k =>
            obtain ⟨depth', limit, hloop⟩ := ih k (by omega) hafter
            refine ⟨max depth depth', limit + 1, ?_⟩
            rw [loop, step]
            simp only [hrung, execute_mono (Nat.le_max_left depth depth') hproceed,
              Option.map_some]
            exact loop_mono (Nat.le_max_right depth depth') (Nat.le_refl limit) hloop

/-- The runs that end are those whose points come to an end, and they end there. -/
theorem exists_run_eq_some_iff {m m' : Machine} {program : List Rung} {reason : StopReason} :
    (∃ fuel, m.run fuel program = some (reason, m')) ↔
      ∃ n, m.pointAt program n = .ended reason m' := by
  constructor
  · rintro ⟨fuel, h⟩
    exact reaches_of_loop h
  · rintro ⟨n, h⟩
    obtain ⟨depth, limit, hloop⟩ := loop_of_ended h
    exact ⟨max depth limit, loop_mono (Nat.le_max_left _ _) (Nat.le_max_right _ _) hloop⟩

/-- A run that ends has come to its end through its points. -/
theorem exists_pointAt_of_run {m m' : Machine} {program : List Rung} {fuel : Nat}
    {reason : StopReason} (h : m.run fuel program = some (reason, m')) :
    ∃ n, m.pointAt program n = .ended reason m' :=
  exists_run_eq_some_iff.mp ⟨fuel, h⟩

/-- A run that ends also ends from wherever one of its steps begins. -/
theorem exists_loop_of_run {m m' m₁ : Machine} {program : List Rung} {fuel n : Nat}
    {reason : StopReason} (hrun : m.run fuel program = some (reason, m'))
    (hpoint : m.pointAt program n = .ready m₁) :
    ∃ depth limit, loop depth limit m₁ = some (reason, m') := by
  obtain ⟨k, hk⟩ := exists_pointAt_of_run hrun
  -- The end is still to come at the point where the step begins.
  have hend : Point.next^[k] (.ready m₁) = .ended reason m' := by
    rw [← hpoint, ← pointAt_add, Nat.add_comm, pointAt_add, hk, Point.iterate_next_ended]
  exact loop_of_ended hend

end Machine

end Verse
