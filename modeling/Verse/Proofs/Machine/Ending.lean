import Verse.Proofs.Machine.Cursors
import Verse.Proofs.Machine.Journal

/-!
# How runs end

As long as a run goes on, no fault has been reported and no `Heaven` has been executed.  The
first of either ends the run at once, whatever blocks are in progress, and the reason of its
end says which of them it was.

* `act_cases_of_ne_heaven`      what a rung other than `Heaven` does to the journal
* `Point.Reasoned.next`         the reason of an end tells what has happened
* `endedBy_of_run`              so it does for every run that ends
* `exists_ended_of_stop`        a rung that ends the run leaves the machine as it stays
-/

namespace Verse

namespace Event

/-- The rung that an event executes. -/
def rung? : Event → Option Rung
  | .executed _ _ rung _ => some rung
  | _ => none

/-- The fault that an event reports. -/
def fault? : Event → Option Fault
  | .failed fault => some fault
  | _ => none

/-- Whether an event is neither an execution nor a fault. -/
def isQuiet : Event → Bool
  | .printed _ | .heard _ | .noticed _ => true
  | .executed .. | .failed _ => false

/-- A quiet event executes no rung. -/
theorem rung?_of_isQuiet {event : Event} (h : event.isQuiet = true) : event.rung? = none := by
  cases event with
  | executed _ _ _ _ => cases h
  | printed _ | heard _ | noticed _ | failed _ => rfl

/-- A quiet event reports no fault. -/
theorem fault?_of_isQuiet {event : Event} (h : event.isQuiet = true) : event.fault? = none := by
  cases event with
  | failed _ => cases h
  | executed _ _ _ _ | printed _ | heard _ | noticed _ => rfl

/-- Remarks are quiet. -/
theorem isQuiet_of_isRemark (event : Event) (h : event.isRemark = true) :
    event.isQuiet = true := by
  cases event with
  | printed _ | noticed _ => rfl
  | executed _ _ _ _ | heard _ | failed _ => cases h

end Event

namespace Machine

/-- The rungs that have been executed, in order. -/
def executedRungs (m : Machine) : List Rung :=
  m.journal.reverse.filterMap Event.rung?

/-- The faults that have been reported, in order. -/
def faults (m : Machine) : List Fault :=
  m.journal.reverse.filterMap Event.fault?

/-- No fault has been reported, and no `Heaven` has been executed. -/
structure Ongoing (m : Machine) : Prop where
  faults : m.faults = []
  rungs : ∀ rung ∈ m.executedRungs, rung.cell ≠ .command .heaven

/-- What has happened in a run that has ended for a reason, and where the bureaucrat is. -/
inductive EndedBy (m : Machine) : StopReason → Prop
  /-- `Heaven` was the last rung. -/
  | halted {earlier : List Rung} {rung : Rung} (hfaults : m.faults = [])
      (hrungs : m.executedRungs = earlier ++ [rung]) (hheaven : rung.cell = .command .heaven)
      (hlt : m.bureaucrat < m.tape.length) : EndedBy m .halted
  /-- Nothing ended the run. -/
  | ranOffEnd (h : m.Ongoing) (heq : m.bureaucrat = m.tape.length) : EndedBy m .ranOffEnd
  /-- There was one fault, and no `Heaven`. -/
  | fatal {fault : Fault} (hfaults : m.faults = [fault])
      (hrungs : ∀ rung ∈ m.executedRungs, rung.cell ≠ .command .heaven)
      (heq : m.bureaucrat = m.tape.length) : EndedBy m .fatal

/-! ## What a rung adds to the journal -/

/-- Events of which nothing is taken add nothing to what is taken. -/
theorem filterMap_journal_of_tells {α : Type} {f : Event → Option α} {m m' : Machine}
    (h : m.Tells (fun event => f event = none) m') :
    m'.journal.reverse.filterMap f = m.journal.reverse.filterMap f := by
  obtain ⟨told, htold, hnone⟩ := h
  have hempty : told.reverse.filterMap f = [] := by
    rw [List.filterMap_eq_nil_iff]
    intro event hevent
    exact hnone event (List.mem_reverse.mp hevent)
  rw [htold, List.reverse_append, List.filterMap_append, hempty, List.append_nil]

/-- A run in which nothing but quiet events happens goes on. -/
theorem Ongoing.of_tells {m m' : Machine} (hm : m.Ongoing)
    (h : m.Tells (fun event => event.isQuiet = true) m') : m'.Ongoing := by
  have hfaults : m'.faults = m.faults :=
    filterMap_journal_of_tells (h.mono fun _ => Event.fault?_of_isQuiet)
  have hrungs : m'.executedRungs = m.executedRungs :=
    filterMap_journal_of_tells (h.mono fun _ => Event.rung?_of_isQuiet)
  refine ⟨?_, ?_⟩
  · rw [hfaults]
    exact hm.faults
  · rw [hrungs]
    exact hm.rungs

/-- What is executed comes last. -/
theorem executedRungs_begin (m : Machine) (frame : Option Frame) (rung : Rung) :
    (m.begin frame rung).executedRungs = m.executedRungs ++ [rung] := by
  simp [executedRungs, begin, record, Event.rung?]

/-- Executing a rung is no fault. -/
theorem faults_begin (m : Machine) (frame : Option Frame) (rung : Rung) :
    (m.begin frame rung).faults = m.faults := by
  simp [faults, begin, record, Event.fault?]

/-- Executing any rung but `Heaven` does not end a run. -/
theorem Ongoing.begin {m : Machine} (hm : m.Ongoing) (frame : Option Frame) {rung : Rung}
    (h : rung.cell ≠ .command .heaven) : (m.begin frame rung).Ongoing := by
  refine ⟨?_, ?_⟩
  · rw [faults_begin]
    exact hm.faults
  · intro other hother
    rw [executedRungs_begin] at hother
    obtain hother | hother := List.mem_append.mp hother
    · exact hm.rungs other hother
    · rw [List.mem_singleton.mp hother]
      exact h

/-- A rung other than `Heaven` goes on without a fault, or reports one and ends the run. -/
theorem act_cases_of_ne_heaven (m : Machine) {rung : Rung} (h : rung.cell ≠ .command .heaven) :
    (∃ m', m.act rung = (.proceed, m') ∧ m.Tells (fun event => event.isQuiet = true) m') ∨
    ∃ m' fault, m.act rung = m'.fail fault ∧ m.Tells (fun event => event.isQuiet = true) m' := by
  have hremark := Event.isQuiet_of_isRemark
  generalize hresult : m.act rung = result
  -- Everything that a rung tells by itself is quiet; a fault comes with the end.
  have hact : Act m rung result := hresult ▸ m.act_cases rung
  cases hact with
  | effect _ heffect =>
    cases heffect with
    | proceed hedits => exact .inl ⟨_, rfl, hedits.tells.mono hremark⟩
    | @pushed m' hedits how => exact .inr ⟨_, _, rfl, hedits.tells.mono hremark⟩
  | heaven hheaven => exact absurd hheaven h
  | heard _ _ =>
    exact .inl ⟨_, rfl, (m.tells_heeded.mono hremark).trans (tells_of_cons rfl rfl)⟩
  | fetched _ _ _ | unheard _ _ _ => exact .inl ⟨_, rfl, m.tells_heeded.mono hremark⟩
  | captured _ _ => exact .inl ⟨_, rfl, (m.tells_captured _ _).mono hremark⟩
  | endless _ _ _ => exact .inr ⟨_, _, rfl, .refl m⟩

/-- `Heaven` ends the run and does nothing else. -/
theorem act_of_heaven {m : Machine} {rung : Rung} (h : rung.cell = .command .heaven) :
    m.act rung = (.stop .halted, m) := by
  rw [act, h]
  rfl

/-- Giving up reports one fault and leaves the bureaucrat behind the tape. -/
theorem Ongoing.fail {m : Machine} (hm : m.Ongoing) (fault : Fault) :
    (m.fail fault).2.EndedBy .fatal := by
  -- The fault is added to those before, of which there are none.
  have hfaults : (m.fail fault).2.faults = m.faults ++ [fault] := by
    simp [Machine.faults, Machine.fail, record, Event.fault?]
  rw [hm.faults, List.nil_append] at hfaults
  have hrungs : (m.fail fault).2.executedRungs = m.executedRungs := by
    simp [executedRungs, Machine.fail, record, Event.rung?]
  refine .fatal hfaults ?_ rfl
  rw [hrungs]
  exact hm.rungs

end Machine

/-! ## From point to point -/

namespace Point

open Machine

/-- Nothing has ended the run so far, or what has ended it is the reason of its end. -/
def Reasoned : Point → Prop
  | .ready m | .within _ m => m.Ongoing
  | .ended reason m => m.EndedBy reason

/-- Executing a rung gives the run a reason if it ends it. -/
theorem reasoned_enter {m : Machine} (hon : m.OnTape) (hm : m.Ongoing) (calls : List Call)
    (frame : Option Frame) (rung : Rung) : (enter calls frame rung m).Reasoned := by
  rw [enter]
  by_cases hheaven : rung.cell = .command .heaven
  · -- The bureaucrat has not moved and is still on the tape.
    rw [act_of_heaven hheaven]
    refine .halted ?_ (m.executedRungs_begin frame rung) hheaven hon.bureaucrat_lt
    rw [faults_begin]
    exact hm.faults
  -- Any other rung adds quiet events, and a fault if it gives up.
  · have hbegin := hm.begin frame hheaven
    obtain ⟨m', hact, htells⟩ | ⟨m', fault, hact, htells⟩ :=
      (m.begin frame rung).act_cases_of_ne_heaven hheaven
    · rw [hact]
      exact hbegin.of_tells htells
    · rw [hact]
      exact (hbegin.of_tells htells).fail fault

/-- What has happened goes on explaining the end from one point to the next. -/
theorem Reasoned.next {program : List Rung} {p : Point} (hordered : p.Ordered program)
    (hp : p.Reasoned) : p.next.Reasoned := by
  cases p using shape_cases with
  | ready m =>
    rw [Point.next]
    split
    case h_1 hnone =>
      -- The bureaucrat is not beyond the end of the tape, and there is no rung under it.
      have hge := List.getElem?_eq_none_iff.mp hnone
      have hle := hordered.1.bureaucrat_le
      exact .ranOffEnd hp (by omega)
    case h_2 rung hrung =>
      have hon : Machine.OnTape { m with moved := false } :=
        ⟨hordered.1.delegate_le, (List.getElem?_eq_some_iff.mp hrung).1⟩
      exact reasoned_enter hon ⟨hp.faults, hp.rungs⟩ [] none rung
  | stepped m =>
    rw [Point.next]
    split
    · exact hp
    · exact ⟨hp.faults, hp.rungs⟩
  | returning _ _ _ _ | ended _ _ => exact hp
  | inBlock _ _ rung _ _ m => exact reasoned_enter hordered hp _ _ rung

end Point

namespace Machine

/-- At every point of every run, what has happened explains whether it has ended. -/
theorem reasoned_pointAt (m : Machine) (program : List Rung) (n : Nat) :
    (m.pointAt program n).Reasoned := by
  induction n with
  | zero => exact ⟨rfl, List.forall_mem_nil _⟩
  | succ n ih =>
    rw [pointAt_succ]
    exact ih.next (m.pointAt_ordered program n)

/-- Every run that ends does so for what has happened in it. -/
theorem endedBy_of_run {m m' : Machine} {program : List Rung} {fuel : Nat} {reason : StopReason}
    (h : m.run fuel program = some (reason, m')) : m'.EndedBy reason := by
  obtain ⟨n, hn⟩ := exists_pointAt_of_run h
  have hreasoned := m.reasoned_pointAt program n
  rw [hn] at hreasoned
  exact hreasoned

/-- A rung that ends the run, at whatever depth of blocks, leaves the machine as it is from then
    on, up to the end of the run. -/
theorem exists_ended_of_stop {m m₁ m₂ : Machine} {program : List Rung} {n depth : Nat}
    {frame : Option Frame} {rung : Rung} {reason : StopReason}
    (hup : (m.pointAt program n).upcoming? = some (frame, rung, m₁))
    (h : execute depth frame rung m₁ = some (.stop reason, m₂)) :
    (∃ k, ∀ j, k ≤ j → m.pointAt program j = .ended reason m₂) ∧
      ∃ fuel, m.run fuel program = some (reason, m₂) := by
  obtain ⟨hnone, -⟩ | ⟨calls, frame', rung', moved, hup', hnext⟩ := (m.pointAt program n).next_cases
  · rw [hnone] at hup
    cases hup
  · rw [hup] at hup'
    cases hup'
    -- Executing the rung leads from the next point to the end.
    obtain ⟨k, hk⟩ := reaches_of_execute h calls
    have hended : m.pointAt program (n + 1 + k) = .ended reason m₂ := by
      rw [pointAt_add, pointAt_succ, hnext, hk]
      rfl
    refine ⟨⟨n + 1 + k, fun j hj => ?_⟩, exists_run_eq_some_iff.mpr ⟨_, hended⟩⟩
    obtain ⟨i, rfl⟩ := Nat.exists_eq_add_of_le hj
    rw [pointAt_add, hended, Point.iterate_next_ended]

end Machine

end Verse
