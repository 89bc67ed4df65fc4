import Verse.Engine
import Verse.Proofs.Live
import Verse.Proofs.Machine.Journal
import Verse.Proofs.Recorder

/-!
# Observing a run does not change it

The output, the trace and the log are told of what happens when it happens, and have no say
in it.  Whatever they do with it, runs from the same machine come to the same end.  What they
have at the end they could have been told from the journal of the machine alone.

* `runProgram_eq`            a run, told from the journal of the machine
* `recorderAt_eq`            the recorder at the points of a run
* `shows_of_run`             what becomes of the events of a run
* `sinks_never_interfere`    runs that differ in their sinks and traces only
-/

namespace Verse

namespace Machine

/-- The texts that have been printed, in order. -/
def printed (m : Machine) : List String :=
  m.journal.reverse.filterMap Event.text?

/-- What the machine has had to say, in order. -/
def entries (m : Machine) : List LogEntry :=
  m.journal.reverse.filterMap Event.entry?

/-- The texts that a trace in a mode has for what has happened, in order. -/
def traced (m : Machine) (mode : TraceMode) : List String :=
  (m.journal.reverse.filterMap (Event.record? mode)).map TraceRecord.text

/-- Of a machine that starts a run only the generator and the input matter. -/
theorem start_congr {m m' : Machine} (hgenerator : m.generator = m'.generator)
    (hinput : m.input = m'.input) (program : List Rung) : m.start program = m'.start program := by
  rw [start, start, hgenerator, hinput]

end Machine

namespace Engine

/-- What a run that has ended makes of the events, and the engine that it leaves. -/
def conclude (e : Engine) (reason : StopReason) (m : Machine) : RunReport × Engine :=
  let r := (e.recorder.observeAll m.journal).finish m.toSnapshot
  ({ outcome := { steps := m.steps, reason }, log := r.log.reverse, trace := r.tracer.sink? },
    { e with machine := { m with journal := [] }, output := r.output, traceSink := none })

/-- An engine runs a program live, and it comes to what the machine alone comes to, with the
    events told from the journal. -/
theorem runProgram_eq (e : Engine) (fuel : Nat) (program : List Rung) :
    e.runProgram fuel program =
      (e.machine.run fuel program).map fun result => e.conclude result.1 result.2 := by
  rw [runProgram]
  dsimp only
  rw [Machine.live_run, Option.map_map]
  rfl

/-- A run that has finished is a run of the machine that has ended, with what it comes to. -/
theorem run_eq_finished_iff {e : Engine} {program : List Rung}
    (hprogram : e.program = some program) {fuel : Nat} {report : RunReport} {engine : Engine} :
    e.run fuel = .finished report engine ↔ ∃ reason m,
      e.machine.run fuel program = some (reason, m) ∧ e.conclude reason m = (report, engine) := by
  rw [run, hprogram]
  dsimp only
  rw [runProgram_eq]
  cases e.machine.run fuel program with
  | none => simp
  | some result =>
    obtain ⟨reason, m⟩ := result
    simp only [Option.map_some, Attempt.finished.injEq, Option.some.injEq, Prod.mk.injEq]
    constructor
    · rintro ⟨hreport, hengine⟩
      exact ⟨reason, m, ⟨rfl, rfl⟩, Prod.ext hreport hengine⟩
    · rintro ⟨reason', m', ⟨rfl, rfl⟩, h⟩
      exact ⟨congrArg Prod.fst h, congrArg Prod.snd h⟩

/-- Only a program that is loaded can be run. -/
theorem program_eq_some_of_run {e : Engine} {fuel : Nat} {report : RunReport} {engine : Engine}
    (h : e.run fuel = .finished report engine) : ∃ program, e.program = some program := by
  rw [run] at h
  split at h
  · cases h
  · exact ⟨_, by assumption⟩

/-- The recorder at the points of a run.  It is told of the events between two points when the
    run comes to the second one. -/
def recorderAt (e : Engine) (program : List Rung) : Nat → Recorder
  | 0 => e.recorder
  | n + 1 =>
    let earlier := (e.machine.pointAt program n).machine.journal
    let later := (e.machine.pointAt program (n + 1)).machine.journal
    (e.recorderAt program n).observeAll (later.take (later.length - earlier.length))

/-- The recorder has heard of everything that has happened. -/
theorem recorderAt_eq (e : Engine) (program : List Rung) (n : Nat) :
    e.recorderAt program n =
      e.recorder.observeAll (e.machine.pointAt program n).machine.journal := by
  induction n with
  | zero => rfl
  | succ n ih =>
    -- The journal has only grown since the last point.
    obtain ⟨told, htold⟩ : ∃ told, (e.machine.pointAt program (n + 1)).machine.journal =
        told ++ (e.machine.pointAt program n).machine.journal := by
      rw [Machine.pointAt_succ]
      obtain ⟨-, h⟩ | ⟨frame, rung, m, told, -, h, -⟩ :=
        (e.machine.pointAt program n).next_journal
      · exact ⟨[], h⟩
      · exact ⟨told ++ [.executed m.steps frame rung m.toSnapshot], by
          rw [h, List.append_assoc, List.singleton_append]⟩
    rw [recorderAt, ih, htold, List.length_append, Nat.add_sub_cancel, List.take_left',
      Recorder.observeAll_append]
    rfl

/-- A run that ends leaves what the recorder has that follows it to its end. -/
theorem recorderAt_of_run {e : Engine} {fuel : Nat} {report : RunReport} {engine : Engine}
    (h : e.run fuel = .finished report engine) :
    ∃ program n reason m, e.program = some program ∧
      e.machine.run fuel program = some (reason, m) ∧
      e.machine.pointAt program n = .ended reason m ∧
      report.outcome = { steps := m.steps, reason } ∧
      engine.machine = { m with journal := [] } ∧
      engine.output = ((e.recorderAt program n).finish m.toSnapshot).output ∧
      report.trace = ((e.recorderAt program n).finish m.toSnapshot).tracer.sink? ∧
      report.log = ((e.recorderAt program n).finish m.toSnapshot).log.reverse := by
  obtain ⟨program, hprogram⟩ := program_eq_some_of_run h
  obtain ⟨reason, m, hrun, hconclude⟩ := (run_eq_finished_iff hprogram).mp h
  obtain ⟨n, hn⟩ := Machine.exists_pointAt_of_run hrun
  cases hconclude
  refine ⟨program, n, reason, m, hprogram, hrun, hn, rfl, rfl, ?_⟩
  rw [recorderAt_eq, hn]
  exact ⟨rfl, rfl, rfl⟩

/-- The sink that a run writes its trace to, if it is traced. -/
def tracingSink? (e : Engine) : Option Sink :=
  if e.mode.isOn then e.traceSink else none

/-- The recorder of an engine traces to the sink that there is, or not at all. -/
theorem tracer_recorder (e : Engine) :
    (e.tracingSink? = none ∧ e.recorder.tracer = .off) ∨
      ∃ sink, e.tracingSink? = some sink ∧ e.recorder.tracer.Holds e.mode sink := by
  rw [tracingSink?, recorder, Tracer.ofSink.eq_def]
  by_cases hmode : e.mode.isOn = true
  · cases hsink : e.traceSink with
    | none => exact .inl ⟨ite_self _, rfl⟩
    | some sink =>
      simp only [if_pos hmode]
      exact .inr ⟨sink, rfl, .writing⟩
  · refine .inl ⟨if_neg hmode, ?_⟩
    split
    · exact if_neg hmode
    · rfl

/-- What a recorder has of the events up to a machine.  The sinks have taken as much as they
    have room for: the output of the texts printed, and the trace of the records of its mode.
    Complaints about them aside, the log has what the machine has had to say. -/
structure HasSeen (e : Engine) (m : Machine) (r : Recorder) : Prop where
  output : r.output = e.output.after m.printed
  trace : r.tracer.sink? = e.tracingSink?.map (·.after (m.traced e.mode))
  entries : r.entries.reverse = m.entries

/-- At every point the recorder has seen all that has happened up to it. -/
theorem recorderAt_hasSeen (e : Engine) (program : List Rung) (n : Nat) :
    e.HasSeen (e.machine.pointAt program n).machine (e.recorderAt program n) := by
  rw [recorderAt_eq]
  refine ⟨Recorder.output_observeAll _ _, ?_, ?_⟩
  · obtain ⟨hnone, hoff⟩ | ⟨sink, hsome, hholds⟩ := e.tracer_recorder
    · rw [Recorder.tracer_observeAll_off hoff, hnone]
      rfl
    · rw [(Recorder.traced_observeAll hholds _).sink?_eq, hsome]
      rfl
  · rw [Recorder.entries_observeAll, Machine.entries, List.filterMap_reverse]
    exact congrArg List.reverse (List.append_nil _)

/-- What the end of a run shows of it: the same, with the end of the trace. -/
structure Shows (e : Engine) (reason : StopReason) (m : Machine) (report : RunReport)
    (engine : Engine) : Prop where
  outcome : report.outcome = { steps := m.steps, reason }
  machine : engine.machine = { m with journal := [] }
  output : engine.output = e.output.after m.printed
  trace : report.trace = e.tracingSink?.map
    (·.after (m.traced e.mode ++ [(TraceRecord.termination m.toSnapshot).text]))
  entries : report.log.filter (fun entry => !entry.isComplaint) = m.entries

/-- Every run that ends shows what its recorder has made of the events. -/
theorem shows_of_run {e : Engine} {fuel : Nat} {report : RunReport} {engine : Engine}
    (h : e.run fuel = .finished report engine) :
    ∃ program reason m, e.program = some program ∧
      e.machine.run fuel program = some (reason, m) ∧ e.Shows reason m report engine := by
  obtain ⟨program, n, reason, m, hprogram, hrun, hn, houtcome, hmachine, houtput, htrace, hlog⟩ :=
    recorderAt_of_run h
  have hseen := e.recorderAt_hasSeen program n
  rw [hn] at hseen
  refine ⟨program, reason, m, hprogram, hrun, houtcome, hmachine, ?_, ?_, ?_⟩
  · rw [houtput, Recorder.output_finish]
    exact hseen.output
  · rw [htrace, Recorder.tracer_finish, recorderAt_eq, hn]
    obtain ⟨hnone, hoff⟩ | ⟨sink, hsome, hholds⟩ := e.tracer_recorder
    · rw [Recorder.tracer_observeAll_off hoff, hnone]
      rfl
    · -- The end of the trace is one more record.
      have hend := (Recorder.traced_observeAll hholds m.journal).write (.termination m.toSnapshot)
      rw [← Sink.after_append] at hend
      rw [hsome]
      exact hend.sink?_eq
  · have hfinish := Recorder.entries_finish (e.recorderAt program n) m.toSnapshot
    rw [hlog, List.filter_reverse]
    exact (congrArg List.reverse hfinish).trans hseen.entries

/-- A run of the machine that ends makes a run of the engine that finishes. -/
theorem run_eq_finished {e : Engine} {fuel : Nat} {program : List Rung} {reason : StopReason}
    {m : Machine} (hprogram : e.program = some program)
    (hrun : e.machine.run fuel program = some (reason, m)) :
    ∃ report engine, e.run fuel = .finished report engine :=
  ⟨_, _, (run_eq_finished_iff hprogram).mpr ⟨reason, m, hrun, rfl⟩⟩

/-- Runs of a program from the same generator and input do not depend on where their outputs
    and traces go.  Two live machines that differ in their recorders alone go through every rung
    and every step alike and tell their recorders of the same events, whatever these write and
    fail to write on the way.  Throughout the runs both recorders have seen the same machine.  If
    the one run ends, so does the other, with the same outcome, the same machine and the same
    texts printed.  Of these texts, and of the records of the trace, a sink only loses what it
    refuses. -/
theorem sinks_never_interfere {e e' : Engine} (hprogram : e'.program = e.program)
    (hgenerator : e'.machine.generator = e.machine.generator)
    (hinput : e'.machine.input = e.machine.input) :
    (∀ l l' : Live, l'.machine = l.machine → ∀ depth,
      (∀ frame rung, Live.SameConduct l.recorder l'.recorder
        (Live.execute depth frame rung l) (Live.execute depth frame rung l')) ∧
      Live.SameConduct l.recorder l'.recorder (l.step depth) (l'.step depth)) ∧
    (∀ program n,
      e.HasSeen (e.machine.pointAt program n).machine (e.recorderAt program n) ∧
      e'.HasSeen (e.machine.pointAt program n).machine (e'.recorderAt program n)) ∧
    ∀ fuel report engine, e.run fuel = .finished report engine →
      (∃ report' engine', e'.run fuel = .finished report' engine') ∧
      ∀ fuel' report' engine', e'.run fuel' = .finished report' engine' →
        report'.outcome = report.outcome ∧ engine'.machine = engine.machine ∧
        ∃ program reason m, e.program = some program ∧
          e.machine.run fuel program = some (reason, m) ∧
          e'.machine.run fuel' program = some (reason, m) ∧
          e.Shows reason m report engine ∧ e'.Shows reason m report' engine' := by
  have hstart := Machine.start_congr hgenerator hinput
  refine ⟨fun l l' h depth => ⟨Live.sameConduct_execute h depth, Live.sameConduct_step h depth⟩,
    fun program n => ⟨e.recorderAt_hasSeen program n, ?_⟩, fun fuel report engine h => ?_⟩
  · -- At every point: the machine is the same, as both runs start from the same one.
    have hpoint : e.machine.pointAt program n = e'.machine.pointAt program n := by
      rw [Machine.pointAt, Machine.pointAt, hstart]
    rw [hpoint]
    exact e'.recorderAt_hasSeen program n
  · -- At the end.
    obtain ⟨program, reason, m, hprogram₁, hrun, hshows⟩ := shows_of_run h
    have hsame : ∀ fuel, e'.machine.run fuel program = e.machine.run fuel program := by
      intro fuel
      rw [Machine.run, Machine.run, hstart]
    refine ⟨?_, fun fuel' report' engine' h' => ?_⟩
    · exact run_eq_finished (hprogram.trans hprogram₁) ((hsame fuel).trans hrun)
    · -- However much fuel the other run has, it takes the same machine to the same end.
      obtain ⟨program', reason', m', hprogram₂, hrun', hshows'⟩ := shows_of_run h'
      obtain rfl : program' = program :=
        Option.some.inj (hprogram₂.symm.trans (hprogram.trans hprogram₁))
      have hunique := Machine.run_unique hrun ((hsame fuel').symm.trans hrun')
      obtain ⟨rfl, rfl⟩ := Prod.mk.inj hunique
      refine ⟨hshows'.outcome.trans hshows.outcome.symm,
        hshows'.machine.trans hshows.machine.symm, ?_⟩
      exact ⟨program', reason, m, hprogram₁, hrun, hrun', hshows, hshows'⟩

/-- An engine with a program that counts a five. -/
def counting (mode : TraceMode) (output : Sink) (traceSink : Option Sink) : Engine :=
  let five : Rung := { position := .input 0, name := "five", element := .wood, cell := .literal 5.0 }
  let count : Rung :=
    { position := .input 1, name := "count", element := .earth, cell := .command .count }
  { program := some [five, count], machine := { generator := .ofSeed 7 }, mode, output, traceSink }

/-- One of the engines has nowhere to print to, and the other a trace that breaks off. -/
theorem sinks_never_interfere_counting :
    ∃ report engine report' engine',
      (counting .off { room := some 0 } none).run 9 = .finished report engine ∧
      (counting .everything {} (some { room := some 1 })).run 9 = .finished report' engine' ∧
      report'.outcome = report.outcome ∧ engine'.machine = engine.machine ∧
      engine.output.received = [] ∧ engine'.output.received = ["5"] := by
  obtain ⟨report, engine, h⟩ : ∃ report engine,
      (counting .off { room := some 0 } none).run 9 = .finished report engine := ⟨_, _, rfl⟩
  have hcounting := @sinks_never_interfere (counting .off { room := some 0 } none)
    (counting .everything {} (some { room := some 1 })) rfl rfl rfl
  obtain ⟨⟨report', engine', h'⟩, hsame⟩ := hcounting.2.2 9 report engine h
  obtain ⟨houtcome, hmachine, -⟩ := hsame 9 report' engine' h'
  refine ⟨report, engine, report', engine', h, h', houtcome, hmachine, ?_, ?_⟩
  · cases h
    decide +kernel
  · cases h'
    decide +kernel

end Engine

end Verse
