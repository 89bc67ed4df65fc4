import Verse.Proofs.Engine.Observation
import Verse.Proofs.Machine.Blocks
import Verse.Proofs.Machine.Cursors
import Verse.Proofs.Machine.Turns
import Verse.Proofs.Trace.Marks
import Verse.Proofs.Trace.Text

/-!
# Dumps show the machine as it is

A dump marks the rungs that the cursors are on, and in the block of a variable the rung that is
being executed.  The cursors are on the tape, but for a bureaucrat that has come to its end.  The
mark in a block is where the rung is, because as long as the block is in progress the variable
either keeps it or has none.

* `Point.InPlace.next`         what is left of a block in progress is still the end of the block
* `Machine.exists_upcoming`    what a trace records has been about to be executed
* `Machine.ShowsRun`           what a record shows of a run
* `dumps_show_the_machine`     the records of every trace
-/

namespace Verse

/-- What is left of a block in progress is what its variable has from there on, if that still has a
    block. -/
def Call.InPlace (vars : Variables) (call : Call) : Prop :=
  ∀ block, vars.block? call.name = some block → call.rest = block.drop call.index

namespace Point

open Machine

/-- The blocks in progress are in place. -/
def InPlace (p : Point) : Prop :=
  ∀ call ∈ p.calls, call.InPlace p.machine.vars

/-- A block that has just been called is in place, and those that have been in progress before stay
    so, as no variable gets another block. -/
theorem inPlace_enter {m : Machine} {calls : List Call} {frame : Option Frame} {rung : Rung}
    (hcalls : ∀ call ∈ calls, call.InPlace m.vars)
    (hkeeps : calls ≠ [] → m.KeepsBlocks (enter calls frame rung m).machine) :
    (enter calls frame rung m).InPlace := by
  intro call hcall block hblock
  -- A call in progress is the one that the rung has made, or has been in progress before.
  obtain hcalled | hearlier := List.mem_append.mp (calls_settle _ _ call hcall)
  · rw [Option.mem_toList] at hcalled
    rw [enter, machine_settle, act_of_called? hcalled] at hblock
    obtain ⟨name, block', -, hblock', rfl⟩ := called?_eq_some hcalled
    obtain rfl := Option.some.inj (hblock'.symm.trans hblock)
    rfl
  · obtain hsame | ⟨hnone, -⟩ := (hkeeps (List.ne_nil_of_mem hearlier)).block? call.name
    · exact hcalls call hearlier block (hsame ▸ hblock)
    · rw [hnone] at hblock
      cases hblock

/-- From point to point the blocks in progress stay in place. -/
theorem InPlace.next {p : Point} (hp : p.Sound) (h : p.InPlace) : p.next.InPlace := by
  cases p using shape_cases with
  | ready m =>
    rw [Point.next]
    split
    · exact List.forall_mem_nil _
    · exact inPlace_enter (List.forall_mem_nil _) fun hne => absurd rfl hne
  | stepped m => exact List.forall_mem_nil _
  | returning name index calls m => exact fun call hcall => h call (.tail _ hcall)
  | inBlock name index rung rest calls m =>
    refine inPlace_enter ?_ fun _ => hp.next_keepsBlocks (List.cons_ne_nil _ _)
    intro call hcall
    obtain rfl | hcall := List.mem_cons.mp hcall
    · -- The rung is taken off what is left of its block.
      intro block hblock
      have hrest : rung :: rest = block.drop index := h _ List.mem_cons_self block hblock
      rw [← List.tail_drop, ← hrest, List.tail_cons]
    · exact h call (.tail _ hcall)
  | ended reason m => exact List.forall_mem_nil _

/-- A rung of a block is executed where the block of its variable has it. -/
theorem InPlace.getElem?_of_upcoming? {p : Point} (h : p.InPlace) {frame : Frame} {rung : Rung}
    {m : Machine} (hup : p.upcoming? = some (some frame, rung, m)) {block : List Rung}
    (hblock : m.vars.block? frame.name = some block) : block[frame.index]? = some rung := by
  cases p using shape_cases with
  | ready m =>
    obtain ⟨rung', -, heq⟩ := Option.map_eq_some_iff.mp hup
    cases heq
  | inBlock name index rung rest calls m =>
    cases hup
    have hrest : rung :: rest = block.drop index := h _ List.mem_cons_self block hblock
    rw [← List.head?_drop, ← hrest, List.head?_cons]
  | stepped _ | returning _ _ _ _ | ended _ _ => cases hup

end Point

namespace Machine

/-- At every point of a run the blocks in progress are in place. -/
theorem inPlace_pointAt (m : Machine) (program : List Rung) (n : Nat) :
    (m.pointAt program n).InPlace := by
  induction n with
  | zero => exact List.forall_mem_nil _
  | succ n ih =>
    rw [pointAt_succ]
    exact ih.next (m.sound_pointAt program n)

/-- The executions that a trace has recorded are those of the rungs that have been about to be
    executed. -/
theorem exists_upcoming {m : Machine} {program : List Rung} {mode : TraceMode} {step : Nat}
    {frame : Option Frame} {scene : Snapshot} {n : Nat}
    (h : .execution step frame scene ∈ (m.pointAt program n).machine.records mode) :
    ∃ k rung m', (m.pointAt program k).upcoming? = some (frame, rung, m') ∧
      step = m'.steps ∧ scene = m'.toSnapshot := by
  induction n with
  | zero => cases h
  | succ n ih =>
    -- The record comes from an event, which was in the journal before the last point or has been
    -- told of since.
    obtain ⟨event, hevent, hrecord⟩ := List.mem_filterMap.mp h
    rw [List.mem_reverse, pointAt_succ] at hevent
    have hearlier (hevent : event ∈ (m.pointAt program n).machine.journal) :=
      ih (List.mem_filterMap.mpr ⟨event, List.mem_reverse.mpr hevent, hrecord⟩)
    obtain ⟨-, hjournal⟩ | ⟨frame', rung, m', told, hup, hjournal, hkind⟩ :=
      (m.pointAt program n).next_journal
    · exact hearlier (hjournal ▸ hevent)
    · rw [hjournal, List.mem_append, List.mem_cons] at hevent
      obtain htold | rfl | hevent := hevent
      · -- Nothing that comes of an execution is another one.
        have hnot := hkind event htold
        cases event with
        | executed _ _ _ _ => cases hnot
        | printed _ | heard _ | noticed _ | failed _ => cases hrecord
      · rw [Event.record?] at hrecord
        split at hrecord
        · cases hrecord
          exact ⟨n, rung, m', hup, rfl, rfl⟩
        · cases hrecord
      · exact hearlier hevent

/-- The table of the variables before the execution of a rung.  A rung of a block is marked at its
    index in the block of its variable, as long as the variable has a block, and nothing else is
    ever marked. -/
structure ShowsRung (vars : Variables) (frame : Option Frame) (rung : Rung) : Prop where
  /-- A rung of the tape is not in the table. -/
  ofTape : frame = none → (variableTable vars frame).rows.filter VariableRow.marksExecuting = []
  /-- The variable may have lost its block while the rungs of the block are executed. -/
  lost (place : Frame) : frame = some place → vars.block? place.name = none →
    (variableTable vars frame).rows.filter VariableRow.marksExecuting = []
  /-- Where the block is, one row is marked, and shows the rung with its index. -/
  ofBlock (place : Frame) (block : List Rung) : frame = some place →
    vars.block? place.name = some block →
    block[place.index]? = some rung ∧
    (variableTable vars frame).rows.filter VariableRow.marksExecuting =
      [["* --> " ++ toString place.index, rung.display, ""]]

/-- If the block of its variable has the rung at its index, the table shows the rung. -/
theorem showsRung {vars : Variables} {frame : Option Frame} {rung : Rung}
    (h : ∀ place block, frame = some place → vars.block? place.name = some block →
      block[place.index]? = some rung) : ShowsRung vars frame rung where
  ofTape hframe := by
    rw [hframe]
    exact filter_variableTable_none vars
  lost place hframe hnone := by
    rw [hframe, filter_variableTable, hnone]
    rfl
  ofBlock place block hframe hblock := by
    have hrung := h place block hframe hblock
    refine ⟨hrung, ?_⟩
    rw [hframe, filter_variableTable, hblock, Option.bind_some, hrung]
    rfl

/-- The records of a trace of a run that has left a machine at its end. -/
def recordsToEnd (m : Machine) (mode : TraceMode) : List TraceRecord :=
  m.records mode ++ [.termination m.toSnapshot]

/-- What a record shows of a run.  Each execution is that of a rung which the run has been about to
    execute then, and the end is one that the run has come to.  Their dumps show the tape of the
    machine at that moment, and the rung that is executed, if any. -/
def ShowsRun (m : Machine) (program : List Rung) : TraceRecord → Prop
  | .execution step frame scene =>
    ∃ n rung m', (m.pointAt program n).upcoming? = some (frame, rung, m') ∧
      step = m'.steps ∧ scene = m'.toSnapshot ∧ scene.ShowsTape ∧ ShowsRung scene.vars frame rung
  | .output _ => True
  | .termination scene =>
    ∃ n reason m', m.pointAt program n = .ended reason m' ∧ scene = m'.toSnapshot ∧
      scene.ShowsTape ∧ (variableTable scene.vars none).rows.filter VariableRow.marksExecuting = []

/-- What a trace has recorded shows the run: the rung that was upcoming is on the tape or in its
    block, as the cursors are in order and the blocks in place. -/
theorem showsRun_of_mem_records {m : Machine} {program : List Rung} {n : Nat} {mode : TraceMode}
    {record : TraceRecord} (h : record ∈ (m.pointAt program n).machine.records mode) :
    m.ShowsRun program record := by
  cases record with
  | execution step frame scene =>
    obtain ⟨k, rung, m', hup, hstep, rfl⟩ := exists_upcoming h
    have hon := (m.pointAt_ordered program k).onTape_of_upcoming? hup
    refine ⟨k, rung, m', hup, hstep, rfl,
      Snapshot.showsTape hon.delegate_lt (Nat.le_of_lt hon.bureaucrat_lt), showsRung ?_⟩
    rintro place block rfl hblock
    exact (m.inPlace_pointAt program k).getElem?_of_upcoming? hup hblock
  | output _ => trivial
  | termination scene =>
    -- No event of a run is its end.
    obtain ⟨event, -, hrecord⟩ := List.mem_filterMap.mp h
    cases event with
    | executed _ _ _ _ =>
      rw [Event.record?] at hrecord
      split at hrecord <;> cases hrecord
    | printed _ | heard _ | noticed _ | failed _ => cases hrecord

/-- At the end of a run the bureaucrat may be behind the tape, but the delegate is on it. -/
theorem showsRun_termination {m m' : Machine} {program : List Rung} (hne : program ≠ []) {n : Nat}
    {reason : StopReason} (h : m.pointAt program n = .ended reason m') :
    m.ShowsRun program (.termination m'.toSnapshot) := by
  have hordered := m.pointAt_ordered program n
  rw [h] at hordered
  exact ⟨n, reason, m', h, rfl,
    Snapshot.showsTape (hordered.delegate_lt hne) hordered.inOrder.bureaucrat_le,
    filter_variableTable_none _⟩

end Machine

namespace Engine

/-- In every run of a program with rungs, whether it ends or not, the dumps show the machine at
    the moment that they are made.  At each point of a run, the trace is made of the texts of the
    records of what has happened so far, and when it ends of one more, of the end.  The text of a
    dump shows two tables, with all of their rows.  The table of the tape has every index once,
    in descending order, the bureaucrat and the delegate are marked once each, where they are,
    and an end is shown just when the bureaucrat is there.  In the table of the variables the rung
    is marked that is about to be executed, if it is one of a block that its variable still has,
    and none otherwise, nor at the end. -/
theorem dumps_show_the_machine {e : Engine} {program : List Rung}
    (hloaded : e.program = some program) (hne : program ≠ []) :
    (∀ n, (e.recorderAt program n).tracer.sink? = e.tracingSink?.map
        (·.after (((e.machine.pointAt program n).machine.records e.mode).map TraceRecord.text)) ∧
      ∀ record ∈ (e.machine.pointAt program n).machine.records e.mode,
        record.Reads record.text ∧ e.machine.ShowsRun program record) ∧
    ∀ fuel report engine, e.run fuel = .finished report engine →
      ∃ n reason m, e.machine.pointAt program n = .ended reason m ∧
        report.trace = e.tracingSink?.map
          (·.after ((m.recordsToEnd e.mode).map TraceRecord.text)) ∧
        ∀ record ∈ m.recordsToEnd e.mode,
          record.Reads record.text ∧ e.machine.ShowsRun program record := by
  refine ⟨fun n => ⟨?_, fun record hrecord =>
    ⟨record.reads_text, Machine.showsRun_of_mem_records hrecord⟩⟩, fun _ _ _ h => ?_⟩
  · exact (e.recorderAt_hasSeen program n).trace
  · obtain ⟨program', reason, m, hprogram, hrun, hshows⟩ := shows_of_run h
    obtain rfl : program = program' := Option.some.inj (hloaded.symm.trans hprogram)
    obtain ⟨n, hend⟩ := Machine.exists_pointAt_of_run hrun
    refine ⟨n, reason, m, hend, ?_, fun record hrecord => ⟨record.reads_text, ?_⟩⟩
    · -- The trace of the whole run has the record of the end besides.
      rw [hshows.trace, Machine.recordsToEnd, List.map_append]
      rfl
    · rw [Machine.recordsToEnd, List.mem_append, List.mem_singleton] at hrecord
      obtain hrecord | rfl := hrecord
      · have hatEnd : record ∈ (e.machine.pointAt program n).machine.records e.mode := by
          rw [hend]
          exact hrecord
        exact Machine.showsRun_of_mem_records hatEnd
      · exact Machine.showsRun_termination hne hend

/-- A program whose block `song` stores a number in `song`, and then prints it. -/
def refrain : List Rung :=
  let song : Rung :=
    { position := .input 2, name := "song", element := .wood, cell := .variable "song" }
  let seven : Rung :=
    { position := .input 0, name := "seven", element := .metal, cell := .literal 7.0 }
  let mark : Rung := { position := .input 1, name := ".", element := .earth, cell := .punctuation }
  let like : Rung :=
    { position := .input 3, name := "like", element := .earth, cell := .command .like }
  let count : Rung :=
    { position := .input 4, name := "count", element := .earth, cell := .command .count }
  [seven, mark, song, like, count, song, song]

/-- An engine that traces every rung of that program. -/
def singing : Engine :=
  { (ofSeed 7).loadRungs refrain.reverse with mode := .everything, traceSink := some {} }

/-- The first rung of the block is marked.  The second one is not, as the variable has a number by
    then.  At the end of the run the bureaucrat is behind the last rung. -/
theorem dumps_show_the_machine_refrain :
    ∃ like count report engine m,
      .execution 3 (some ⟨"song", 0⟩) like ∈
        (singing.machine.pointAt refrain 10).machine.records .everything ∧
      (variableTable like.vars (some ⟨"song", 0⟩)).rows.filter VariableRow.marksExecuting =
        [["* --> 0", "(INPUT, 3) \"like\" COMMAND Like earth", ""]] ∧
      .execution 4 (some ⟨"song", 1⟩) count ∈
        (singing.machine.pointAt refrain 10).machine.records .everything ∧
      (variableTable count.vars (some ⟨"song", 1⟩)).rows.filter VariableRow.marksExecuting = [] ∧
      singing.run 10 = .finished report engine ∧
      report.trace =
        some (({} : Sink).after ((Machine.recordsToEnd m .everything).map TraceRecord.text)) ∧
      (tapeTable m.toSnapshot).rows.filter TapeRow.marksEnd =
        [["   B>", "7", "", "", "END", "", ""]] := by
  obtain ⟨hdumps, hends⟩ := dumps_show_the_machine (e := singing) rfl (by decide : refrain ≠ [])
  obtain ⟨-, hrecords⟩ := hdumps 10
  -- The rungs of the block are recorded as they are executed, the first one while the variable
  -- still has the block.
  have hlike : .execution 3 (some ⟨"song", 0⟩)
        (singing.machine.pointAt refrain 5).machine.toSnapshot ∈
      (singing.machine.pointAt refrain 10).machine.records .everything :=
    List.mem_of_getElem? (i := 3) rfl
  have hcount : .execution 4 (some ⟨"song", 1⟩)
        (singing.machine.pointAt refrain 6).machine.toSnapshot ∈
      (singing.machine.pointAt refrain 10).machine.records .everything :=
    List.mem_of_getElem? (i := 4) rfl
  have hblock : (singing.machine.pointAt refrain 5).machine.vars.block? "song" =
      some [refrain[3], refrain[4]] := by decide +kernel
  have hnone : (singing.machine.pointAt refrain 6).machine.vars.block? "song" = none := by
    decide +kernel
  -- What the records show of them is known from the theorem, whatever points they were made at.
  obtain ⟨-, k, rung, m₁, -, -, -, -, hshows⟩ := hrecords _ hlike
  obtain ⟨-, k', rung', m₁', -, -, -, -, hshows'⟩ := hrecords _ hcount
  obtain ⟨hrung, hmarked⟩ := hshows.ofBlock _ _ rfl hblock
  obtain rfl : refrain[3] = rung := Option.some.inj hrung
  have hunmarked := hshows'.lost ⟨"song", 1⟩ rfl hnone
  -- The run ends, and what is left is shown at the end of its trace.
  have hvalues : (singing.machine.run 10 refrain).map (fun result =>
      (result.2.bureaucrat, result.2.tape.length)) = some (7, 7) := by
    decide +kernel
  obtain ⟨⟨reason, left⟩, hrun, hleft⟩ := Option.map_eq_some_iff.mp hvalues
  obtain ⟨hbureaucrat, hlength⟩ := Prod.mk.inj hleft
  obtain ⟨report, engine, hfinished⟩ := run_eq_finished (e := singing) rfl hrun
  obtain ⟨n, reason', m, hend, htrace, hshown⟩ := hends 10 report engine hfinished
  obtain ⟨fuel, hrun'⟩ := Machine.exists_run_eq_some_iff.mpr ⟨n, hend⟩
  obtain ⟨-, rfl⟩ := Prod.mk.inj (Machine.run_unique hrun' hrun)
  have hlast : .termination m.toSnapshot ∈ m.recordsToEnd .everything := List.mem_concat_self
  obtain ⟨-, -, -, -, -, -, htape, -⟩ := hshown _ hlast
  refine ⟨_, _, report, engine, m, hlike, ?_, hcount, hunmarked, hfinished, htrace, ?_⟩
  · rw [hmarked]
    decide +kernel
  · rw [htape.ending, if_pos (hbureaucrat.trans hlength.symm)]
    show [["   B>", toString m.tape.length, "", "", "END", "", ""]] = _
    rw [hlength]
    decide +kernel

end Engine

end Verse
