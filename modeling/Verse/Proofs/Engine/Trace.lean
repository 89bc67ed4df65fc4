import Verse.Proofs.Engine.Demand
import Verse.Proofs.Machine.Turns
import Verse.Proofs.Trace.Text

/-!
# The trace of a run

A full trace shows the turns of a run, one after another and numbered, each with its text right
behind it, and closes with the end of the run.  The other traces are the same without the
executions of the rungs of blocks.  A sink that is full receives the trace up to there, and the
log says so once.

* `Recorder.Traces`                what a recorder has made of its records so far
* `trace_shows_every_turn`         the traces of a run that ends, in every mode and to every sink
-/

namespace Verse

/-! ## Records -/

namespace TraceRecord

/-- A dump is never empty, as it has its title. -/
theorem isEmpty_dump (title variablesTitle : String) (frame : Option Frame) (scene : Snapshot) :
    (dump title variablesTitle frame scene).isEmpty = false := by
  simp [dump, heading, String.isEmpty_eq_false_iff]

/-- No record has an empty text, so each of them takes room in a sink. -/
theorem isEmpty_text (record : TraceRecord) : record.text.isEmpty = false := by
  cases record with
  | execution _ _ _ => exact isEmpty_dump _ _ _ _
  | output _ => simp [TraceRecord.text, String.isEmpty_eq_false_iff]
  | termination scene => simp [TraceRecord.text, String.isEmpty_eq_false_iff]

end TraceRecord

/-- The records of a full trace that belong into a trace of a mode. -/
def TraceMode.select (mode : TraceMode) (records : List TraceRecord) : List TraceRecord :=
  match mode with
  | .off => []
  | .topLevel => records.filter fun record => !record.isOfBlock
  | .everything => records

/-- A full trace of turns that leave a machine at the end. -/
def Turn.trace (turns : List Turn) (scene : Snapshot) : List TraceRecord :=
  recordsAll turns ++ [.termination scene]

/-- The trace in a mode, as the journal of a run and its end have it. -/
theorem Machine.select_trace {m m' : Machine} {program : List Rung} {n : Nat}
    {reason : StopReason} (hend : m.pointAt program n = .ended reason m') {mode : TraceMode}
    (hmode : mode.isOn = true) :
    mode.select (Turn.trace (m.turns program n) m'.toSnapshot) =
      m'.records mode ++ [.termination m'.toSnapshot] := by
  have hrecords := m.records_pointAt program n
  rw [hend] at hrecords
  rw [Turn.trace, ← hrecords]
  cases mode with
  | off => cases hmode
  | topLevel =>
    -- The end is no execution of a rung of a block.
    rw [records_topLevel, TraceMode.select, List.filter_append]
    rfl
  | everything => rfl

/-- Whether an entry of the log reports that the trace has been given up. -/
def LogEntry.isLostTrace : LogEntry → Bool
  | .lostTrace _ => true
  | _ => false

/-! ## Sinks without enough room -/

namespace Sink

/-- Whether there are more texts than there is room for. -/
def overruns (sink : Sink) (count : Nat) : Bool :=
  sink.room.any (· < count)

/-- A sink is overrun if and only if its room is limited and too small. -/
theorem overruns_eq_true_iff {sink : Sink} {count : Nat} :
    sink.overruns count = true ↔ ∃ room, sink.room = some room ∧ room < count := by
  rw [overruns, Option.any_eq_true]
  simp only [decide_eq_true_eq]

/-- No sink is overrun by nothing. -/
theorem overruns_zero (sink : Sink) : sink.overruns 0 = false := by
  rw [overruns]
  cases sink.room <;> simp

/-- What is too much stays too much. -/
theorem overruns_mono {sink : Sink} {count count' : Nat} (h : sink.overruns count = true)
    (hle : count ≤ count') : sink.overruns count' = true := by
  obtain ⟨room, hroom, hlt⟩ := overruns_eq_true_iff.mp h
  exact overruns_eq_true_iff.mpr ⟨room, hroom, Nat.lt_of_lt_of_le hlt hle⟩

variable {texts : List String}

/-- Of texts that are not empty, a sink takes the first ones. -/
theorem takes_of_isEmpty_eq_false (h : ∀ text ∈ texts, text.isEmpty = false) (sink : Sink) :
    sink.takes texts = texts.take (sink.room.getD texts.length) := by
  have hfilter : texts.filter (fun text => !text.isEmpty) = texts :=
    List.filter_eq_self.mpr (by simpa using h)
  rw [takes, hfilter]
  cases sink.room <;> simp

/-- The room that is left behind texts that are not empty. -/
theorem room_after (h : ∀ text ∈ texts, text.isEmpty = false) (sink : Sink) :
    (sink.after texts).room = sink.room.map (· - texts.length) := by
  rw [after, takes_of_isEmpty_eq_false h]
  cases hroom : sink.room with
  | none => rfl
  | some room =>
    simp only [Option.map_some, Option.getD_some, List.length_take, Option.some.injEq]
    omega

/-- A sink takes one more text as long as it has not been given too many. -/
theorem write_after (h : ∀ text ∈ texts, text.isEmpty = false) (sink : Sink) {text : String}
    (htext : text.isEmpty = false) :
    (sink.after texts).write text =
      if sink.overruns (texts.length + 1) then .error .full
      else .ok ((sink.after texts).after [text]) := by
  have hroom := room_after h sink
  cases hwrite : (sink.after texts).write text with
  | ok sink' =>
    rw [write_eq_ok hwrite, if_neg]
    -- Where there was no room, the text would have been refused.
    rw [write, if_neg (by simp [htext]), hroom] at hwrite
    simp only [overruns, Option.any_eq_true, decide_eq_true_eq, not_exists, not_and]
    intro room hsome
    rw [hsome, Option.map_some] at hwrite
    intro hlt
    rw [show room - texts.length = 0 by omega] at hwrite
    cases hwrite
  | error fault =>
    have hzero := room_of_write_eq_error hwrite
    rw [eq_full_of_write_eq_error hwrite, if_pos]
    rw [hroom, Option.map_eq_some_iff] at hzero
    obtain ⟨room, hsome, hsub⟩ := hzero
    rw [overruns, hsome]
    simp only [Option.any_some, decide_eq_true_eq]
    omega

end Sink

/-! ## The recorder -/

/-- What a recorder has made of the records that were to go to a sink.  They have all been
    written, or else the first one that there was no room for has been reported in the log and
    the trace given up. -/
inductive Recorder.Traces (mode : TraceMode) (sink : Sink) (records : List TraceRecord)
    (r : Recorder) : Prop
  | whole (hfits : sink.overruns records.length = false)
      (htracer : r.tracer = .writing mode (sink.after (records.map TraceRecord.text)))
      (hlost : r.log.countP LogEntry.isLostTrace = 0)
  | broken (hover : sink.overruns records.length = true)
      (htracer : r.tracer = .givenUp (sink.after (records.map TraceRecord.text)))
      (hlost : r.log.countP LogEntry.isLostTrace = 1)

namespace Recorder

/-- A tracer that has given up ignores a record. -/
theorem trace_of_givenUp {r : Recorder} {sink : Sink} (h : r.tracer = .givenUp sink)
    (record : TraceRecord) : r.trace record = r := by
  rw [Recorder.trace, h]
  show { r with tracer := .givenUp sink } = r
  rw [← h]

/-- A record that the sink takes is written. -/
theorem trace_of_ok {r : Recorder} {mode : TraceMode} {sink sink' : Sink} {record : TraceRecord}
    (h : r.tracer = .writing mode sink) (hwrite : sink.write record.text = .ok sink') :
    r.trace record = { r with tracer := .writing mode sink' } := by
  rw [Recorder.trace, h, Tracer.write, hwrite]

/-- A record that the sink does not take ends the trace, and is noted as lost. -/
theorem trace_of_error {r : Recorder} {mode : TraceMode} {sink : Sink} {fault : SinkFault}
    {record : TraceRecord} (h : r.tracer = .writing mode sink)
    (hwrite : sink.write record.text = .error fault) :
    r.trace record = { r with tracer := .givenUp sink }.note (.lostTrace fault) := by
  rw [Recorder.trace, h, Tracer.write, hwrite]

namespace Traces

variable {mode : TraceMode} {sink : Sink} {records : List TraceRecord} {r r' : Recorder}

/-- No record has an empty text. -/
theorem isEmpty_of_mem_map_text (records : List TraceRecord) :
    ∀ text ∈ records.map TraceRecord.text, text.isEmpty = false := by
  intro text htext
  obtain ⟨record, -, rfl⟩ := List.mem_map.mp htext
  exact record.isEmpty_text

/-- Whatever is done with the output or noted besides, the trace is as it was. -/
theorem congr (h : r.Traces mode sink records) (htracer : r'.tracer = r.tracer)
    (hlost : r'.log.countP LogEntry.isLostTrace = r.log.countP LogEntry.isLostTrace) :
    r'.Traces mode sink records := by
  cases h with
  | whole hfits htracer' hlost' => exact .whole hfits (htracer.trans htracer') (hlost.trans hlost')
  | broken hover htracer' hlost' =>
    exact .broken hover (htracer.trans htracer') (hlost.trans hlost')

/-- An entry on something else than the trace does not matter to it. -/
theorem note (h : r.Traces mode sink records) {entry : LogEntry}
    (hentry : entry.isLostTrace = false) : (r.note entry).Traces mode sink records := by
  refine h.congr rfl ?_
  rw [Recorder.note, List.countP_cons_of_neg (by simp [hentry])]

/-- Once the trace has been given up, it makes no difference what else would go into it. -/
theorem of_givenUp {given : Sink} (h : r.Traces mode sink records)
    (hgiven : r.tracer = .givenUp given) (later : List TraceRecord) :
    r.Traces mode sink (records ++ later) := by
  cases h with
  | whole _ htracer _ =>
    rw [hgiven] at htracer
    cases htracer
  | broken hover htracer hlost =>
    -- What is broken has no room left, so that later records do not matter.
    have hfull : (sink.after (records.map TraceRecord.text)).room = some 0 := by
      obtain ⟨room, hroom, hlt⟩ := Sink.overruns_eq_true_iff.mp hover
      rw [Sink.room_after (isEmpty_of_mem_map_text records), hroom, List.length_map,
        Option.map_some, Nat.sub_eq_zero_of_le (Nat.le_of_lt hlt)]
    refine .broken (Sink.overruns_mono hover (by simp)) ?_ hlost
    rw [List.map_append, Sink.after_append, Sink.after_of_room_eq_zero hfull]
    exact htracer

/-- A record is written, or it is the first one without room, or it comes too late. -/
theorem trace (h : r.Traces mode sink records) (record : TraceRecord) :
    (r.trace record).Traces mode sink (records ++ [record]) := by
  have hlength : (records ++ [record]).length = records.length + 1 := List.length_append
  have hafter : sink.after ((records ++ [record]).map TraceRecord.text) =
      (sink.after (records.map TraceRecord.text)).after [record.text] := by
    rw [List.map_append, Sink.after_append, List.map_singleton]
  cases h with
  | whole hfits htracer hlost =>
    -- It depends on the room whether the record is still written.
    have hwrite := Sink.write_after (isEmpty_of_mem_map_text records) sink record.isEmpty_text
    rw [List.length_map, ← hlength] at hwrite
    cases hnext : sink.overruns (records ++ [record]).length with
    | false =>
      rw [hnext, if_neg Bool.false_ne_true] at hwrite
      rw [trace_of_ok htracer hwrite]
      exact .whole hnext (by rw [hafter]) hlost
    | true =>
      rw [hnext, if_pos rfl] at hwrite
      rw [trace_of_error htracer hwrite]
      refine .broken hnext ?_ ?_
      · rw [hafter, Sink.after_of_room_eq_zero (Sink.room_of_write_eq_error hwrite)]
        rfl
      · rw [Recorder.note, List.countP_cons_of_pos rfl, hlost]
  | broken hover htracer hlost =>
    rw [trace_of_givenUp htracer]
    exact Traces.of_givenUp (.broken hover htracer hlost) htracer [record]

/-- Nor does printing, which may put an entry on lost output into the log. -/
theorem print (h : r.Traces mode sink records) (text : String) :
    (r.print text).Traces mode sink records := by
  unfold Recorder.print
  split
  · exact h.congr rfl rfl
  · exact h.note rfl

/-- An event has at most one record. -/
theorem observe (h : r.Traces mode sink records) (event : Event) :
    (r.observe event).Traces mode sink (records ++ (event.record? mode).toList) := by
  cases event with
  | executed step frame rung scene =>
    cases htracer : r.tracer with
    | off =>
      -- An observer without a tracer traces nothing, so the records are not those of any trace.
      cases h with
      | whole _ h _ | broken _ h _ => cases htracer.symm.trans h
    | givenUp given =>
      have hwants : r.tracer.wants frame = false := by rw [htracer]; rfl
      rw [Recorder.observe, hwants, if_neg Bool.false_ne_true]
      exact h.of_givenUp htracer _
    | writing mode' sink' =>
      -- The mode that the tracer goes by is the one that it was given.
      have hmode : mode' = mode := by
        cases h with
        | whole _ h _ => exact (Tracer.writing.inj (htracer.symm.trans h)).1
        | broken _ h _ => cases htracer.symm.trans h
      rw [Recorder.observe, htracer, Tracer.wants, hmode, Event.record?]
      split
      · exact h.trace _
      · rwa [Option.toList_none, List.append_nil]
  | printed text => exact (h.print text).trace (.output text)
  | heard _ =>
    rw [show Event.record? mode _ = none from rfl, Option.toList_none, List.append_nil]
    exact h
  | noticed _ | failed _ =>
    rw [show Event.record? mode _ = none from rfl, Option.toList_none, List.append_nil]
    exact h.note rfl

/-- The records of a journal go to the trace in order. -/
theorem observeAll (h : r.Traces mode sink records) (journal : List Event) :
    (r.observeAll journal).Traces mode sink
      (records ++ journal.reverse.filterMap (Event.record? mode)) := by
  induction journal with
  | nil => rwa [List.reverse_nil, List.filterMap_nil, List.append_nil]
  | cons event journal ih =>
    have hevent := ih.observe event
    rw [List.append_assoc] at hevent
    rw [observeAll_cons, List.reverse_cons, List.filterMap_append]
    cases hrecord : event.record? mode <;> simpa [hrecord] using hevent

/-- The end of the run is one more record, and flushing changes nothing about the trace. -/
theorem finish (h : r.Traces mode sink records) (scene : Snapshot) :
    (r.finish scene).Traces mode sink (records ++ [.termination scene]) := by
  have hflush : r.flushOutput.Traces mode sink records := by
    unfold flushOutput
    split
    · exact h
    · exact h.note rfl
  have hend := hflush.trace (.termination scene)
  rw [Recorder.finish, flushTrace]
  split
  · exact hend
  · exact hend.note rfl

end Traces

end Recorder

namespace Engine

/-- A recorder that starts with a sink for its trace. -/
theorem traces_recorder {e : Engine} {sink : Sink} (hmode : e.mode.isOn = true)
    (hsink : e.traceSink = some sink) : e.recorder.Traces e.mode sink [] := by
  refine .whole sink.overruns_zero ?_ rfl
  rw [recorder, hsink, Tracer.ofSink, if_pos hmode, List.map_nil, Sink.after_nil]

/-- The engine with another trace to write. -/
def traced (e : Engine) (mode : TraceMode) (sink : Sink) : Engine :=
  { e with mode, traceSink := some sink }

/-- A sink has received a trace, as much of it as there is room for, and the log has an entry
    on a lost trace if there is not enough. -/
structure Receives (sink : Sink) (trace : List TraceRecord) (report : RunReport) : Prop where
  received : ∃ sink', report.trace = some sink' ∧
    sink'.received = ((trace.take (sink.room.getD trace.length)).map TraceRecord.text).reverse ++
      sink.received
  lost : report.log.countP LogEntry.isLostTrace = if sink.overruns trace.length then 1 else 0

/-- What a recorder has traced to a sink, the report has received. -/
theorem receives_of_traces {mode : TraceMode} {sink : Sink}
    {records : List TraceRecord} {r : Recorder} (h : r.Traces mode sink records)
    {report : RunReport} (htrace : report.trace = r.tracer.sink?)
    (hlog : report.log = r.log.reverse) : Receives sink records report := by
  have hreceived : (sink.after (records.map TraceRecord.text)).received =
      ((records.take (sink.room.getD records.length)).map TraceRecord.text).reverse ++
        sink.received := by
    rw [Sink.after, Sink.takes_of_isEmpty_eq_false
      (Recorder.Traces.isEmpty_of_mem_map_text records), List.length_map, List.map_take]
  cases h with
  | whole hfits htracer hlost =>
    refine ⟨⟨_, ?_, hreceived⟩, ?_⟩
    · rw [htrace, htracer, Tracer.sink?]
    · rw [hlog, List.countP_reverse, hlost, hfits]
      rfl
  | broken hover htracer hlost =>
    refine ⟨⟨_, ?_, hreceived⟩, ?_⟩
    · rw [htrace, htracer, Tracer.sink?]
    · rw [hlog, List.countP_reverse, hlost, hover]
      rfl

/-- Every run that ends has made its turns, as many as its outcome counts, and printed their
    texts.  Traced in any mode, to any sink, it ends with the same outcome, and the trace is made
    of these turns.  The full trace has the execution of each turn, right behind it the text that
    the rung printed, if any, and at the end the machine that is left.  Each record is shown by
    its text, and the numbers in the texts of the executions go from zero without a gap.  The
    trace of the tape is the same without the executions of rungs of blocks.  The sink receives
    the texts of the whole trace, or of as many records as it has room for, and the log reports a
    lost trace once if there are more records than that, and never otherwise. -/
theorem trace_shows_every_turn {e : Engine} {fuel : Nat} {report : RunReport} {engine : Engine}
    (h : e.run fuel = .finished report engine) :
    ∃ program n m, e.program = some program ∧
      e.machine.pointAt program n = .ended report.outcome.reason m ∧
      report.outcome.steps = (e.machine.turns program n).length ∧
      engine.output = e.output.after ((e.machine.turns program n).filterMap Turn.text) ∧
      (∀ record ∈ Turn.trace (e.machine.turns program n) m.toSnapshot,
        record.Reads record.text) ∧
      ((Turn.trace (e.machine.turns program n) m.toSnapshot).map TraceRecord.text).filterMap
        executionNumber? = List.range report.outcome.steps ∧
      ∀ mode sink, mode.isOn = true →
        (∃ report' engine', (e.traced mode sink).run fuel = .finished report' engine') ∧
        ∀ fuel' report' engine', (e.traced mode sink).run fuel' = .finished report' engine' →
          report'.outcome = report.outcome ∧
          Receives sink (mode.select (Turn.trace (e.machine.turns program n) m.toSnapshot))
            report' := by
  obtain ⟨program, reason, m, hprogram, hrun, hshows⟩ := shows_of_run h
  obtain ⟨n, hend⟩ := Machine.exists_pointAt_of_run hrun
  have houtcome := hshows.outcome
  have hsteps := e.machine.steps_pointAt program n
  have hprinted := e.machine.printed_pointAt program n
  rw [hend] at hsteps hprinted
  refine ⟨program, n, m, hprogram, ?_, ?_, ?_, fun record _ => record.reads_text, ?_,
    fun mode sink hmode => ⟨?_, ?_⟩⟩
  · rw [houtcome, hend]
  · -- The counted steps are the turns.
    rw [houtcome]
    exact hsteps
  · -- The output has got what the turns have printed.
    rw [hshows.output]
    exact congrArg e.output.after hprinted
  · -- The records of turns that execute something are numbered by their turn, and the others have
    -- no numbers.
    rw [TraceRecord.filterMap_executionNumber?, Turn.trace, List.filterMap_append,
      Turn.filterMap_number?_recordsAll, houtcome]
    show List.range _ ++ [] = List.range m.steps
    rw [List.append_nil]
    exact congrArg List.range hsteps.symm
  · -- The machine knows nothing of the trace.
    exact run_eq_finished (e := e.traced mode sink) hprogram hrun
  · intro fuel' report' engine' h'
    obtain ⟨reason', m', hrun', hconclude⟩ :=
      (run_eq_finished_iff (e := e.traced mode sink) hprogram).mp h'
    obtain ⟨rfl, rfl⟩ := Prod.mk.inj (Machine.run_unique hrun' hrun)
    obtain ⟨rfl, -⟩ := Prod.mk.inj hconclude
    refine ⟨houtcome.symm, ?_⟩
    have hstart := traces_recorder (e := e.traced mode sink) hmode rfl
    have hfinish := (hstart.observeAll m'.journal).finish m'.toSnapshot
    rw [List.nil_append] at hfinish
    rw [Machine.select_trace hend hmode]
    exact receives_of_traces hfinish rfl rfl

/-- A program that has a seven counted by the block `song`, which it then performs. -/
def score : List Rung :=
  let song : Rung :=
    { position := .input 2, name := "song", element := .wood, cell := .variable "song" }
  let seven : Rung :=
    { position := .input 0, name := "seven", element := .metal, cell := .literal 7.0 }
  let mark : Rung := { position := .input 1, name := ".", element := .earth, cell := .punctuation }
  let count : Rung :=
    { position := .input 3, name := "count", element := .earth, cell := .command .count }
  [seven, mark, song, count, song, song]

/-- There are four turns, the last of them in the block, and a text.  A sink for the trace of the
    tape receives five records, and one with room for three of the six in a full trace loses the
    others. -/
theorem trace_shows_every_turn_score :
    ∃ report engine report' engine' sink' report'' engine'' sink'',
      ((ofSeed 7).loadRungs score.reverse).run 9 = .finished report engine ∧
      report.outcome.steps = 4 ∧
      (((ofSeed 7).loadRungs score.reverse).traced .topLevel {}).run 9 =
        .finished report' engine' ∧
      report'.outcome = report.outcome ∧
      report'.trace = some sink' ∧ sink'.received.length = 5 ∧
      (((ofSeed 7).loadRungs score.reverse).traced .everything { room := some 3 }).run 9 =
        .finished report'' engine'' ∧
      report''.trace = some sink'' ∧ sink''.received.length = 3 ∧
      report''.log.countP LogEntry.isLostTrace = 1 := by
  let e := (ofSeed 7).loadRungs score.reverse
  have hvalues : (e.machine.run 9 score).map (fun result => (result.2.steps,
      (result.2.records .topLevel).length, (result.2.records .everything).length)) =
        some (4, 4, 5) := by
    decide +kernel
  obtain ⟨⟨reason, left⟩, hrun, hleft⟩ := Option.map_eq_some_iff.mp hvalues
  simp only [Prod.mk.injEq] at hleft
  obtain ⟨hsteps, htop, hall⟩ := hleft
  obtain ⟨report, engine, h⟩ := run_eq_finished (e := e) rfl hrun
  obtain ⟨program, n, m, hprogram, hend, houtcome, -, -, -, hsinks⟩ := trace_shows_every_turn h
  -- The end that the turns lead to is the one that the machine has been run to.
  obtain rfl : score = program := Option.some.inj hprogram
  obtain ⟨fuel, hrun'⟩ := Machine.exists_run_eq_some_iff.mpr ⟨n, hend⟩
  obtain ⟨-, rfl⟩ := Prod.mk.inj (Machine.run_unique hrun' hrun)
  have hturns := e.machine.steps_pointAt score n
  rw [hend] at hturns
  obtain ⟨⟨report', engine', h'⟩, htrace'⟩ := hsinks .topLevel {} rfl
  obtain ⟨⟨report'', engine'', h''⟩, htrace''⟩ := hsinks .everything { room := some 3 } rfl
  obtain ⟨hsame, ⟨sink', hsink', hreceived'⟩, -⟩ := htrace' 9 report' engine' h'
  obtain ⟨-, ⟨sink'', hsink'', hreceived''⟩, hlost⟩ := htrace'' 9 report'' engine'' h''
  rw [Machine.select_trace hend rfl] at hreceived' hreceived'' hlost
  refine ⟨report, engine, report', engine', sink', report'', engine'', sink'', h, ?_, h', hsame,
    hsink', ?_, h'', hsink'', ?_, ?_⟩
  · exact houtcome.trans (hturns.symm.trans hsteps)
  · simp [hreceived', htop]
  · simp [hreceived'', hall]
  · simp [hlost, hall, Sink.overruns]

end Engine

end Verse
