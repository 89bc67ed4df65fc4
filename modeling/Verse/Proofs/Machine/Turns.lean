import Verse.Proofs.Machine.Still

/-!
# The turns of a run

A run executes one rung after another, those of blocks among those of the tape.  Each of them
has its turn: the rung with its frame, what there was to see before it, and the text that it
printed.  The turns of a run say everything that a trace of it has to show.

* `Machine.turns`              the turns up to a point of a run
* `steps_pointAt`              as many as the machine has counted
* `records_pointAt`            the records of a full trace, turn by turn
* `records_topLevel`           those of the other traces
-/

namespace Verse

/-- The execution of a rung in the course of a run. -/
structure Turn where
  /-- The place of the rung in its block, if it is one of a block. -/
  frame : Option Frame
  rung : Rung
  /-- What there was to see just before it. -/
  scene : Snapshot
  /-- The text that it printed, if it printed any. -/
  text : Option String

namespace Turn

/-- The records of a turn in a full trace: its execution with its number, and right after it
    the text printed. -/
def records (turn : Turn) (number : Nat) : List TraceRecord :=
  .execution number turn.frame turn.scene :: turn.text.toList.map .output

/-- The records of turns in a full trace.  They are numbered in order, from zero. -/
def recordsAll (turns : List Turn) : List TraceRecord :=
  (turns.mapIdx fun number turn => turn.records number).flatten

/-- The last turn is numbered after the others. -/
theorem recordsAll_concat (turns : List Turn) (turn : Turn) :
    recordsAll (turns ++ [turn]) = recordsAll turns ++ turn.records turns.length := by
  rw [recordsAll, List.mapIdx_concat, List.flatten_concat, recordsAll]

end Turn

namespace TraceRecord

/-- The number of an execution. -/
def number? : TraceRecord → Option Nat
  | .execution step _ _ => some step
  | _ => none

/-- Whether a record is of the execution of a rung of a block. -/
def isOfBlock : TraceRecord → Bool
  | .execution _ frame _ => frame.isSome
  | _ => false

end TraceRecord

/-- The executions in the records of turns are numbered without a gap. -/
theorem Turn.filterMap_number?_recordsAll (turns : List Turn) :
    (recordsAll turns).filterMap TraceRecord.number? = List.range turns.length := by
  induction turns using List.reverseRecOn with
  | nil => rfl
  | append_singleton turns turn ih =>
    -- The last turn adds its own number, and its text none.
    have hturn : (turn.records turns.length).filterMap TraceRecord.number? = [turns.length] := by
      cases htext : turn.text <;> simp [records, htext, TraceRecord.number?]
    rw [recordsAll_concat, List.filterMap_append, ih, hturn, List.length_append,
      List.length_singleton, List.range_succ]

namespace Point

/-- The turn that comes at a point, if a rung is executed there. -/
def turn? (p : Point) : Option Turn :=
  p.upcoming?.map fun (frame, rung, m) =>
    { frame, rung, scene := m.toSnapshot
      text := (p.next.machine.printed.drop p.machine.printed.length).head? }

end Point

namespace Machine

/-- The turns of a run of a program up to one of its points. -/
def turns (m : Machine) (program : List Rung) (n : Nat) : List Turn :=
  (List.range n).filterMap fun k => (m.pointAt program k).turn?

/-- A point adds its turn, if it has one. -/
theorem turns_succ (m : Machine) (program : List Rung) (n : Nat) :
    m.turns program (n + 1) = m.turns program n ++ (m.pointAt program n).turn?.toList := by
  rw [turns, List.range_succ, List.filterMap_append, turns]
  cases h : (m.pointAt program n).turn? <;> simp [h]

/-- The records that a trace in a mode has of what has happened, in order. -/
def records (m : Machine) (mode : TraceMode) : List TraceRecord :=
  m.journal.reverse.filterMap (Event.record? mode)

/-! ## Steps -/

/-- Edits execute no rung. -/
theorem Edits.steps_eq {m m' : Machine} (h : Edits m m') : m'.steps = m.steps := by
  induction h with
  | refl => rfl
  | tail _ hedit ih =>
    rw [← ih]
    cases hedit <;> rfl

/-- Attending to the input executes no rung. -/
theorem steps_heeded (m : Machine) : m.heeded.steps = m.steps := by
  unfold heeded
  split <;> rfl

/-- A capture executes no rung. -/
theorem steps_captured (m : Machine) (name : Rung) (last : Nat) :
    (m.captured name last).steps = m.steps := by
  unfold captured
  split <;> rfl

/-- A rung does not count steps by itself. -/
theorem Act.steps_eq {m : Machine} {rung : Rung} {result : Signal × Machine}
    (h : Act m rung result) : result.2.steps = m.steps := by
  cases h with
  | effect _ h =>
    cases h with
    | proceed h => exact h.steps_eq
    | pushed h how => exact h.steps_eq
  | heaven _ | endless _ _ _ => rfl
  | heard _ _ | fetched _ _ _ | unheard _ _ _ => exact m.steps_heeded
  | captured _ _ => exact m.steps_captured _ _

end Machine

/-! ## From point to point -/

/-- Of events that are no executions, a full trace has the texts. -/
theorem filterMap_record?_of_not_isExecution {events : List Event}
    (h : ∀ event ∈ events, event.isExecution = false) :
    events.filterMap (Event.record? .everything) =
      (events.filterMap Event.text?).map TraceRecord.output := by
  rw [List.map_filterMap]
  apply List.filterMap_congr
  intro event hevent
  cases event with
  | executed _ _ _ _ => cases h _ hevent
  | printed _ | heard _ | noticed _ | failed _ => rfl

namespace Point

open Machine

/-- Either nothing happens at a point, or a rung has its turn. -/
theorem turn_cases (p : Point) :
    (p.turn? = none ∧ p.next.machine.journal = p.machine.journal ∧
      p.next.machine.steps = p.machine.steps) ∨
    ∃ turn told, p.turn? = some turn ∧ p.next.machine.steps = p.machine.steps + 1 ∧
      p.next.machine.journal =
        told ++ .executed p.machine.steps turn.frame turn.rung turn.scene :: p.machine.journal ∧
      (∀ event ∈ told, event.isExecution = false) ∧
      told.reverse.filterMap Event.text? = turn.text.toList := by
  obtain ⟨hnone, bureaucrat, hnext⟩ | ⟨calls, frame, rung, moved, hup, hnext⟩ := p.next_cases
  · have hturn : p.turn? = none := by rw [turn?, hnone, Option.map_none]
    exact .inl ⟨hturn, by rw [hnext], by rw [hnext]⟩
  · obtain ⟨m, hm⟩ : ∃ m : Machine, m = { p.machine with moved } := ⟨_, rfl⟩
    have hmachine : p.next.machine = ((m.begin frame rung).act rung).2 := by
      rw [hnext, enter, machine_settle, hm]
    have hact := (m.begin frame rung).act_cases rung
    -- What the act tells is no execution, and prints one text at most.
    obtain ⟨told, htold, hkind⟩ := hact.tells
    obtain ⟨text, htext⟩ := (m.begin frame rung).prints_act rung
    have hprinted : (m.begin frame rung).printed = p.machine.printed := by
      rw [(m.still_begin frame rung).printed, hm]
      rfl
    -- The journal says what has been printed since, which is the text of the rung.
    have htexts : told.reverse.filterMap Event.text? = text.toList := by
      rw [printed, htold, List.reverse_append, List.filterMap_append] at htext
      exact List.append_cancel_left htext
    have hturn : p.turn? = some ⟨frame, rung, m.toSnapshot, text⟩ := by
      have hhead : text.toList.head? = text := by cases text <;> rfl
      rw [turn?, hup, ← hm, hmachine, htext, hprinted, List.drop_left, hhead]
      rfl
    refine .inr ⟨_, told, hturn, ?_, ?_, hkind, htexts⟩
    · rw [hmachine, hact.steps_eq, hm]
      rfl
    · rw [hmachine, htold, hm]
      rfl

/-- What a turn adds to a full trace. -/
theorem records_next {p : Point} {turn : Turn} (h : p.turn? = some turn) :
    p.next.machine.records .everything =
      p.machine.records .everything ++ turn.records p.machine.steps := by
  -- There is a turn, so the first case is out.
  obtain ⟨hnone, -⟩ | ⟨turn', told, hturn, -, hjournal, hkind, htexts⟩ := p.turn_cases
  · rw [h] at hnone
    cases hnone
  · obtain rfl := Option.some.inj (h.symm.trans hturn)
    have htold : told.reverse.filterMap (Event.record? .everything) =
        turn.text.toList.map .output := by
      rw [filterMap_record?_of_not_isExecution, htexts]
      intro event hevent
      exact hkind event (List.mem_reverse.mp hevent)
    -- The execution is recorded first, with the number of steps before it.
    rw [records, hjournal, List.reverse_append, List.reverse_cons, List.filterMap_append,
      List.filterMap_append, htold, List.append_assoc]
    rfl

end Point

namespace Machine

/-! ## Runs -/

/-- The machine counts the turns. -/
theorem steps_pointAt (m : Machine) (program : List Rung) (n : Nat) :
    (m.pointAt program n).machine.steps = (m.turns program n).length := by
  induction n with
  | zero => rfl
  | succ n ih =>
    rw [pointAt_succ, turns_succ, List.length_append, ← ih]
    obtain ⟨hturn, -, hsteps⟩ | ⟨turn, told, hturn, hsteps, -⟩ :=
      (m.pointAt program n).turn_cases <;> rw [hturn, hsteps] <;> rfl

/-- The texts that have been printed are those of the turns. -/
theorem printed_pointAt (m : Machine) (program : List Rung) (n : Nat) :
    (m.pointAt program n).machine.printed = (m.turns program n).filterMap Turn.text := by
  induction n with
  | zero => rfl
  | succ n ih =>
    rw [pointAt_succ, turns_succ, List.filterMap_append, ← ih]
    obtain ⟨hturn, hjournal, -⟩ | ⟨turn, told, hturn, -, hjournal, -, htexts⟩ :=
      (m.pointAt program n).turn_cases
    · rw [hturn, printed, hjournal, printed]
      simp
    · rw [hturn, printed, hjournal, List.reverse_append, List.reverse_cons,
        List.filterMap_append, List.filterMap_append, htexts, printed]
      cases h : turn.text <;> simp [h, Event.text?]

/-- A full trace has the records of the turns. -/
theorem records_pointAt (m : Machine) (program : List Rung) (n : Nat) :
    (m.pointAt program n).machine.records .everything =
      Turn.recordsAll (m.turns program n) := by
  induction n with
  | zero => rfl
  | succ n ih =>
    rw [pointAt_succ, turns_succ]
    cases hturn : (m.pointAt program n).turn? with
    | none =>
      obtain ⟨-, hjournal, -⟩ | ⟨turn, told, hsome, -⟩ := (m.pointAt program n).turn_cases
      · -- Nothing has happened at the point.
        rw [records, hjournal, Option.toList_none, List.append_nil]
        exact ih
      · rw [hturn] at hsome
        cases hsome
    | some turn =>
      rw [Point.records_next hturn, ih, steps_pointAt, Option.toList_some,
        Turn.recordsAll_concat]

/-- A trace of the rungs of the tape is a full one without the executions of the rungs of
    blocks. -/
theorem records_topLevel (m : Machine) :
    m.records .topLevel = (m.records .everything).filter fun record => !record.isOfBlock := by
  rw [records, records, List.filter_filterMap]
  apply List.filterMap_congr
  intro event _
  cases event with
  | executed step frame rung scene => cases frame <;> rfl
  | printed _ | heard _ | noticed _ | failed _ => rfl

end Machine

end Verse
