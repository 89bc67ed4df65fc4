import Verse.Live
import Verse.Proofs.Machine.Operand

/-!
# A live machine does what the machine does alone

The journal of a machine is what its recorder would have been told.  A live machine does,
call by call, what the machine without a recorder does, and its recorder is told of exactly
what that machine writes into its journal.  So whatever is known of the runs of the machine
holds of the runs for others to see, and what listens to them has no say in them.

* `Silent`                       a change that neither reads nor writes the journal
* `live_dispatch`, `live_step`   the commands and the steps of a live machine
* `live_run`                     and its runs
* `sameConduct_execute`, `sameConduct_step`   live machines that differ in their recorders only
-/

namespace Verse

namespace Machine

/-- The machine with another journal. -/
def setJournal (m : Machine) (journal : List Event) : Machine :=
  { m with journal }

/-- A machine with a recorder that has been told of the journal.  The journal that the live
    machine is left with is not written any more. -/
def live (m : Machine) (r : Recorder) (journal : List Event) : Live :=
  { machine := m.setJournal journal, recorder := r.observeAll m.journal }

variable {m : Machine} {r : Recorder} {journal : List Event}

@[simp] theorem toSnapshot_setJournal :
    (m.setJournal journal).toSnapshot = m.toSnapshot := rfl

@[simp] theorem toSnapshot_live : (m.live r journal).machine.toSnapshot = m.toSnapshot := rfl

@[simp] theorem moved_live : (m.live r journal).machine.moved = m.moved := rfl

@[simp] theorem input_live : (m.live r journal).machine.input = m.input := rfl

/-! ## Changes that are not told of -/

/-- A change of the machine that has nothing to do with its journal. -/
def Silent (change : Machine → Machine) : Prop :=
  ∀ (m : Machine) (journal : List Event),
    change (m.setJournal journal) = (change m).setJournal journal

/-- What has nothing to do with the journal leaves it. -/
theorem Silent.journal_eq {change : Machine → Machine} (h : Silent change) (m : Machine) :
    (change m).journal = m.journal := by
  have heq : change m = (change m).setJournal m.journal := h m m.journal
  rw [heq]
  rfl

/-- Reading draws from the generator and does not care about the journal. -/
theorem readAt_setJournal (m : Machine) (journal : List Event) (index : Nat) :
    (m.setJournal journal).readAt index =
      ((m.readAt index).1, (m.readAt index).2.setJournal journal) := by
  simp only [readAt, setJournal]
  cases m.tape[index]? with
  | none => rfl
  | some rung =>
    dsimp only [read]
    cases rung.cell with
    | command command =>
      dsimp only
      cases command.range? <;> rfl
    | literal _ | «variable» _ | invalid _ | punctuation => rfl

/-- Reading leaves the journal. -/
theorem journal_readAt (m : Machine) (index : Nat) : (m.readAt index).2.journal = m.journal := by
  obtain ⟨generator, h⟩ := m.exists_generator_readAt index
  rw [h]

/-- Writing a number is silent. -/
theorem silent_assignAt (index : Nat) (value : Float) (source : Option Element) :
    Silent (·.assignAt index value source) := by
  intro m journal
  simp only [assignAt, setJournal]
  cases m.tape[index]? with
  | none => rfl
  | some rung =>
    dsimp only
    cases rung.cell <;> rfl

/-- So is advancing an element. -/
theorem silent_advanceAt (index : Nat) (relation : Relation) :
    Silent (·.advanceAt index relation) := by
  intro m journal
  simp only [advanceAt, setJournal]
  cases m.tape[index]? with
  | none => rfl
  | some rung =>
    dsimp only
    cases rung.cell <;> rfl

/-- So is advancing the operand, with the number that it reads before. -/
theorem silent_advanceOperand (relation : Relation) : Silent (·.advanceOperand relation) := by
  intro m journal
  simp only [advanceOperand, readAt_setJournal, toSnapshot_setJournal]
  obtain ⟨value, m'⟩ := m.readAt m.delegate
  cases value with
  | none => rfl
  | some value => exact silent_advanceAt _ _ _ _

/-- So is changing the sign of the operand. -/
theorem silent_negative : Silent negative := by
  intro m journal
  simp only [negative, readAt_setJournal, toSnapshot_setJournal]
  obtain ⟨value, m'⟩ := m.readAt m.delegate
  cases value with
  | none => rfl
  | some value => exact silent_assignAt _ _ _ _ _

/-- So is growing the operand, although it reads, writes and may advance an element. -/
theorem silent_become : Silent become := by
  intro m journal
  simp only [become, readAt_setJournal, toSnapshot_setJournal]
  obtain ⟨value, m'⟩ := m.readAt m.delegate
  cases value with
  | none => rfl
  | some value =>
    dsimp only
    by_cases hzero : (value == 0.0) = true
    · rw [if_pos hzero, if_pos hzero]
      rfl
    -- The number is stored first, which is silent, and then the element of the variable advances.
    · have hgrown : (m'.setJournal journal).assignAt m.delegate (grow value) none =
          (m'.assignAt m.delegate (grow value) none).setJournal journal :=
        silent_assignAt _ _ _ _ _
      rw [if_neg hzero, if_neg hzero, hgrown, toSnapshot_setJournal]
      cases (m'.tape[m.delegate]?).bind Rung.variableName? with
      | none => rfl
      | some name => exact silent_advanceAt _ _ _ _

/-- Searching reads on the way and does not care about the journal. -/
theorem findBelow_setJournal (m : Machine) (journal : List Event) (index : Nat) :
    (m.setJournal journal).findBelow index =
      ((m.findBelow index).1, (m.findBelow index).2.setJournal journal) := by
  induction index generalizing m with
  | zero =>
    simp only [findBelow, readAt_setJournal]
    obtain ⟨_ | value, m'⟩ := m.readAt 0 <;> rfl
  | succ index ih =>
    simp only [findBelow, readAt_setJournal]
    obtain ⟨_ | value, m'⟩ := m.readAt (index + 1)
    · exact ih m'
    · rfl

/-- So is taking a number that is found further down. -/
theorem silent_like : Silent like := by
  intro m journal
  simp only [like, findBelow_setJournal, toSnapshot_setJournal]
  by_cases hstart : m.bureaucrat = 0
  · rw [if_pos hstart, if_pos hstart]
  · rw [if_neg hstart, if_neg hstart]
    cases (m.tape[m.bureaucrat - 1]?).bind Rung.variableName? with
    | none => rfl
    | some name =>
      obtain ⟨_ | ⟨index, value⟩, m'⟩ := m.findBelow m.delegate
      · exact silent_assignAt _ _ _ _ _
      -- The delegate goes to where the number has been found before that is stored.
      · exact silent_assignAt _ _ _ { m' with delegate := index } journal

/-! ## The calls of a live machine -/

/-- What a live machine makes of a call, if this is what the machine alone makes of it. -/
def liveResult (r : Recorder) (journal : List Event) (result : Signal × Machine) :
    Signal × Live :=
  (result.1, result.2.live r journal)

/-- A remark is told as an event. -/
theorem live_notice (notice : Notice) :
    (m.live r journal).notice notice = (m.notice notice).live r journal := rfl

/-- A silent change is made behind the recorder's back. -/
theorem live_edit {change : Machine → Machine} (h : Silent change) :
    (m.live r journal).edit change = (change m).live r journal := by
  rw [Live.edit, live, live, h.journal_eq, h m journal]

/-- Reading gives the same number. -/
theorem live_readAt (index : Nat) :
    (m.live r journal).readAt index =
      ((m.readAt index).1, (m.readAt index).2.live r journal) := by
  simp only [Live.readAt, live, readAt_setJournal, journal_readAt]

/-- Machines that are chosen between may be made live before or after the choice. -/
theorem live_ite (c : Prop) {_ : Decidable c} (m m' : Machine) :
    (if c then m.live r journal else m'.live r journal) =
      (if c then m else m').live r journal := by
  split <;> rfl

/-- So may the results of calls. -/
theorem liveResult_ite (c : Prop) {_ : Decidable c} (result result' : Signal × Machine) :
    (if c then liveResult r journal result else liveResult r journal result') =
      liveResult r journal (if c then result else result') := by
  split <;> rfl

/-- What proceeds with a live machine is the result of what proceeds with the machine. -/
theorem proceed_live (m : Machine) :
    (Signal.proceed, m.live r journal) = liveResult r journal (.proceed, m) := rfl

/-! ### The cursors -/

/-- Giving up is told as a fault. -/
theorem live_fail (fault : Fault) :
    (m.live r journal).fail fault = liveResult r journal (m.fail fault) := rfl

/-- A move of the bureaucrat tells what it has to say before the cursors are where they go. -/
theorem live_march (how : March) (k : Int) :
    (m.live r journal).march how k = liveResult r journal (m.march how k) := by
  have hmoved : (m.live r journal).edit ({ · with moved := true }) =
      live { m with moved := true } r journal := live_edit fun _ _ => rfl
  simp only [Live.march, march, hmoved, live_fail, live_notice, live_ite, toSnapshot_live]
  rw [← liveResult_ite]
  rfl

theorem live_promote : (m.live r journal).promote = liveResult r journal m.promote := by
  simp only [Live.promote, promote, toSnapshot_live, live_readAt]
  obtain ⟨_ | value, m'⟩ := m.readAt m.delegate
  · rfl
  · simp only [live_notice, live_ite, live_march, proceed_live, liveResult_ite]

theorem live_demote : (m.live r journal).demote = liveResult r journal m.demote := by
  simp only [Live.demote, demote, toSnapshot_live, live_readAt]
  obtain ⟨_ | value, m'⟩ := m.readAt m.delegate
  · rfl
  · simp only [live_notice, live_ite, live_march, proceed_live, liveResult_ite]

theorem live_blossom : (m.live r journal).blossom = liveResult r journal m.blossom := by
  simp only [Live.blossom, blossom, toSnapshot_live, live_readAt]
  obtain ⟨_ | value, m'⟩ := m.readAt m.delegate
  · rfl
  · simp only [live_march, proceed_live, liveResult_ite]

/-- How far the delegate is to move is read, and so it is the same. -/
theorem live_driftOffset :
    (m.live r journal).driftOffset = (m.driftOffset.1, m.driftOffset.2.live r journal) := by
  by_cases hstart : m.bureaucrat = 0
  · simp only [Live.driftOffset, driftOffset, hstart, toSnapshot_live, if_true]
  · have hread := m.journal_readAt (m.bureaucrat - 1)
    simp only [Live.driftOffset, driftOffset, live, toSnapshot_setJournal, if_neg hstart,
      readAt_setJournal, hread]

/-- A remark on a negative offset comes first, and both drifts start from what it leaves. -/
theorem live_drift (how : Drift) (k : Int) :
    (m.live r journal).drift how k = (m.drift how k).live r journal := by
  simp only [Live.drift, drift, live_notice, live_ite, toSnapshot_live]
  generalize (if k < 0 then m.notice (.driftedNegative how k) else m) = m'
  rw [← live_ite, ← live_ite]
  rfl

theorem live_rise : (m.live r journal).rise = m.rise.live r journal := by
  simp only [Live.rise, rise, live_driftOffset, live_drift]

theorem live_fall : (m.live r journal).fall = m.fall.live r journal := by
  simp only [Live.fall, fall, live_driftOffset, live_drift]

/-! ### Input and output -/

/-- A remark on the line, the input that is heard, and then the rung, in that order. -/
theorem live_listen : (m.live r journal).listen = m.listen.live r journal := by
  have hheeded : (if (m.live r journal).machine.input.isGarbled = true then
      (m.live r journal).notice .garbledInput else m.live r journal) =
        (if m.input.isGarbled = true then m.notice .garbledInput else m).live r journal := by
    cases h : m.input.isGarbled <;> simp [h, live_notice]
  simp only [Live.listen, listen]
  -- The same input is read, after the same remark on a garbled line.
  rw [hheeded]
  generalize (if m.input.isGarbled = true then m.notice .garbledInput else m) = m'
  rw [input_live]
  obtain ⟨_ | event, input⟩ := m'.input.read
  · have hinput : (m'.live r journal).edit ({ · with input }) =
        live { m' with input } r journal := live_edit fun _ _ => rfl
    simp only [hinput, erase?, toSnapshot_live]
    cases m'.tape[m'.bureaucrat + 1]? <;> rfl
  · rfl

theorem live_speak : (m.live r journal).speak = m.speak.live r journal := by
  simp only [Live.speak, speak, toSnapshot_live, live_readAt]
  obtain ⟨_ | value, m'⟩ := m.readAt m.delegate
  · rfl
  · dsimp only
    cases character? (Numeric.offset value) <;> rfl

theorem live_count : (m.live r journal).count = m.count.live r journal := by
  simp only [Live.count, count, toSnapshot_live, live_readAt]
  obtain ⟨_ | value, m'⟩ := m.readAt m.delegate <;> rfl

/-! ### Values -/

/-- The elements of rungs are the same. -/
theorem elementAt_live (index : Nat) :
    (m.live r journal).machine.elementAt index = m.elementAt index := rfl

/-- Writing a number is a silent change. -/
theorem live_assignAt (index : Nat) (value : Float) (source : Option Element) :
    (m.live r journal).edit (·.assignAt index value source) =
      (m.assignAt index value source).live r journal :=
  live_edit (silent_assignAt index value source)

/-- It is remarked first that an operand is missing.  If none is, both are read before anything is
    written. -/
theorem live_operate : (m.live r journal).operate = m.operate.live r journal := by
  simp only [Live.operate, operate, toSnapshot_live, live_readAt, live_notice]
  rw [← live_ite]
  congr 1
  obtain ⟨_ | b, m₁⟩ := m.readAt m.delegate
  · rfl
  · dsimp only
    rw [live_readAt]
    obtain ⟨_ | a, m₂⟩ := m₁.readAt (m.delegate + 1)
    · rfl
    · simp only [elementAt_live, live_assignAt, live_notice]
      rw [← live_ite]
      congr 1
      cases Relation.between (m₂.elementAt m.delegate) (m₂.elementAt (m.delegate + 1)) with
      | none => rfl
      | some relation => cases relation <;> rfl

/-! ### Rungs -/

/-- Commands that have nothing to say are silent changes, and the others have been spelled out. -/
theorem live_dispatch (command : Command) :
    (m.live r journal).dispatch command = liveResult r journal (m.dispatch command) := by
  cases command with
  | few | many | tomorrow | heaven => rfl
  | promote => exact live_promote
  | demote => exact live_demote
  | blossom => exact live_blossom
  | rise => exact congrArg (Prod.mk Signal.proceed) live_rise
  | fall => exact congrArg (Prod.mk Signal.proceed) live_fall
  | listen => exact congrArg (Prod.mk Signal.proceed) live_listen
  | speak => exact congrArg (Prod.mk Signal.proceed) live_speak
  | count => exact congrArg (Prod.mk Signal.proceed) live_count
  | create | destroy | fear | love =>
    exact congrArg (Prod.mk Signal.proceed) (live_edit (silent_advanceOperand _))
  | become => exact congrArg (Prod.mk Signal.proceed) (live_edit silent_become)
  | like => exact congrArg (Prod.mk Signal.proceed) (live_edit silent_like)
  | negative => exact congrArg (Prod.mk Signal.proceed) (live_edit silent_negative)
  | operate => exact congrArg (Prod.mk Signal.proceed) live_operate

/-- Capturing tells of what stands in its way.  A block is stored silently. -/
theorem live_capture : (m.live r journal).capture = liveResult r journal m.capture := by
  simp only [Live.capture, capture, toSnapshot_live]
  cases m.tape[m.bureaucrat + 1]? with
  | none => rfl
  | some name =>
    dsimp only
    -- The block ends on the same tape, so both capture it or neither.
    rw [← liveResult_ite]
    congr 1
    cases name.variableName? <;> rfl

/-- The execution of a rung is told before its act. -/
theorem live_begin (frame : Option Frame) (rung : Rung) :
    (m.live r journal).begin frame rung = (m.begin frame rung).live r journal := rfl

/-- A block goes the same way if its rungs do. -/
theorem live_perform {execute : Option Frame → Rung → Machine → Option (Signal × Machine)}
    {executeLive : Option Frame → Rung → Live → Option (Signal × Live)}
    (h : ∀ frame rung m, executeLive frame rung (m.live r journal) =
      (execute frame rung m).map (liveResult r journal))
    (name : String) (index : Nat) (rungs : List Rung) (m : Machine) :
    Live.perform executeLive name index rungs (m.live r journal) =
      (perform execute name index rungs m).map (liveResult r journal) := by
  induction rungs generalizing index m with
  | nil => rfl
  | cons rung rest ih =>
    rw [Live.perform, perform, h]
    obtain _ | ⟨_ | reason, m'⟩ := execute (some ⟨name, index⟩) rung m
    · rfl
    · exact ih (index + 1) m'
    · rfl

/-- A rung that cannot be a call is executed the same way at any depth. -/
theorem live_execute_of_ne_variable {rung : Rung} (h : ∀ name, rung.cell ≠ .variable name)
    (depth : Nat) (frame : Option Frame) (m : Machine) :
    Live.execute depth frame rung (m.live r journal) =
      (execute depth frame rung m).map (liveResult r journal) := by
  rw [Live.execute.eq_def, execute.eq_def]
  dsimp only
  rw [live_begin]
  cases hcell : rung.cell with
  | literal _ | invalid _ => rfl
  | command command => exact congrArg some (live_dispatch command)
  | punctuation => exact congrArg some live_capture
  | «variable» name => exact absurd hcell (h name)

/-- A rung is executed the same way, with all the rungs of the blocks that it calls. -/
theorem live_execute (depth : Nat) (frame : Option Frame) (rung : Rung) (m : Machine) :
    Live.execute depth frame rung (m.live r journal) =
      (execute depth frame rung m).map (liveResult r journal) := by
  induction depth generalizing frame rung m with
  | zero =>
    cases hcell : rung.cell with
    | «variable» name =>
      simp only [Live.execute, execute, live_begin, toSnapshot_live, hcell]
      cases (m.begin frame rung).vars.block? name <;> rfl
    | literal _ | command _ | invalid _ | punctuation =>
      exact live_execute_of_ne_variable (by simp [hcell]) _ _ _
  | succ depth ih =>
    cases hcell : rung.cell with
    | «variable» name =>
      simp only [Live.execute, execute, live_begin, toSnapshot_live, hcell]
      cases (m.begin frame rung).vars.block? name with
      | none => rfl
      -- The rungs of the block are less deep.
      | some block => exact live_perform ih name 0 block _
    | literal _ | command _ | invalid _ | punctuation =>
      exact live_execute_of_ne_variable (by simp [hcell]) _ _ _

/-! ## Runs -/

/-- A step of a live machine is the step of the machine. -/
theorem live_step (depth : Nat) (m : Machine) :
    (m.live r journal).step depth = (m.step depth).map (liveResult r journal) := by
  simp only [Live.step, step, toSnapshot_live]
  cases m.tape[m.bureaucrat]? with
  | none => rfl
  | some rung =>
    have hmoved : (m.live r journal).edit ({ · with moved := false }) =
        live { m with moved := false } r journal := live_edit fun _ _ => rfl
    dsimp only
    rw [hmoved, live_execute]
    obtain _ | ⟨_ | reason, m'⟩ := execute depth none rung { m with moved := false }
    · rfl
    · simp only [Option.map_some, liveResult, moved_live]
      rw [← live_ite]
      rfl
    · rfl

/-- A loop of a live machine is the loop of the machine. -/
theorem live_loop (depth limit : Nat) (m : Machine) :
    Live.loop depth limit (m.live r journal) =
      (m.loop depth limit).map fun (reason, m) => (reason, m.live r journal) := by
  induction limit generalizing m with
  | zero => rfl
  | succ limit ih =>
    rw [Live.loop, loop, live_step]
    obtain _ | ⟨_ | reason, m'⟩ := m.step depth
    · rfl
    · exact ih m'
    · rfl

/-- A run of a live machine is the run of the machine, and the recorder has heard of it all.  A
    run starts with nothing in the journal, so the recorder starts as it is. -/
theorem live_run (fuel : Nat) (program : List Rung) (m : Machine) (r : Recorder) :
    Live.run fuel ⟨m, r⟩ program =
      (m.run fuel program).map fun (reason, m) => (reason, m.live r []) :=
  live_loop fuel fuel (m.start program)

end Machine

namespace Live

/-! ## What listens has no say -/

/-- What calls of two live machines come to if the machines do the same and tell their
    recorders the same. -/
inductive SameConduct (r r' : Recorder) : Option (Signal × Live) → Option (Signal × Live) → Prop
  /-- Neither has enough fuel. -/
  | unfinished : SameConduct r r' none none
  | reached (signal : Signal) (machine : Machine) (told : List Event) :
      SameConduct r r' (some (signal, { machine, recorder := r.observeAll told }))
        (some (signal, { machine, recorder := r'.observeAll told }))

/-- Every live machine is a machine that has told its recorder nothing yet. -/
theorem eq_live (l : Live) : l = (l.machine.setJournal []).live l.recorder l.machine.journal := rfl

/-- Results that come from one result of the machine are the same conduct. -/
theorem sameConduct_live (result : Option (Signal × Machine)) (r r' : Recorder)
    (journal : List Event) :
    SameConduct r r' (result.map (Machine.liveResult r journal))
      (result.map (Machine.liveResult r' journal)) := by
  cases result with
  | none => exact .unfinished
  | some result => exact .reached result.1 (result.2.setJournal journal) result.2.journal

variable {l l' : Live}

/-- What a rung does, with all the rungs of the blocks it calls, does not depend on the
    recorder. -/
theorem sameConduct_execute (h : l'.machine = l.machine) (depth : Nat) (frame : Option Frame)
    (rung : Rung) :
    SameConduct l.recorder l'.recorder (execute depth frame rung l)
      (execute depth frame rung l') := by
  rw [eq_live l, eq_live l', h, Machine.live_execute, Machine.live_execute]
  exact sameConduct_live _ _ _ _

/-- What a step does does not depend on the recorder either. -/
theorem sameConduct_step (h : l'.machine = l.machine) (depth : Nat) :
    SameConduct l.recorder l'.recorder (l.step depth) (l'.step depth) := by
  rw [eq_live l, eq_live l', h, Machine.live_step, Machine.live_step]
  exact sameConduct_live _ _ _ _

end Live

end Verse
