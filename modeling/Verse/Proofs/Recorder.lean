import Verse.Recorder

/-!
# What a recorder makes of a journal

The output, the trace and the log take their shares of a journal independently of each
other.  A sink receives the texts of its share as long as there is room for them, and the
log has an entry for everything the machine has to say, whatever else the sinks add to it.

* `output_observeAll`     the output receives the texts printed
* `traced_observeAll`     the sink of the trace receives the records of the mode
* `entries_observeAll`    the log has the entries of the machine
-/

namespace Verse

/-! ## Sinks -/

namespace Sink

/-- The texts that a sink takes out of those it is given: as many as it has room for.  Empty
    texts take no room and leave no trace. -/
def takes (sink : Sink) (texts : List String) : List String :=
  let written := texts.filter fun text => !text.isEmpty
  match sink.room with
  | none => written
  | some room => written.take room

/-- A sink after it has been given texts. -/
def after (sink : Sink) (texts : List String) : Sink :=
  { sink with
    room := sink.room.map (· - (sink.takes texts).length)
    received := (sink.takes texts).reverse ++ sink.received }

/-- What is given later is taken as far as there is room left. -/
theorem takes_append (sink : Sink) (texts texts' : List String) :
    sink.takes (texts ++ texts') = sink.takes texts ++ (sink.after texts).takes texts' := by
  obtain ⟨_ | room, flushes, received⟩ := sink
  · simp only [takes, after, List.filter_append, Option.map_none]
  · simp only [takes, after, List.filter_append, List.take_append, Option.map_some,
      List.length_take]
    congr 2
    omega

/-- A sink that is given nothing stays as it is. -/
@[simp] theorem after_nil (sink : Sink) : sink.after [] = sink := by
  obtain ⟨_ | room, flushes, received⟩ := sink <;> simp [after, takes]

/-- Texts may be given in parts. -/
theorem after_append (sink : Sink) (texts texts' : List String) :
    sink.after (texts ++ texts') = (sink.after texts).after texts' := by
  have htakes := sink.takes_append texts texts'
  have hafter : (sink.after texts).after texts' =
      { sink with
        room := (sink.room.map (· - (sink.takes texts).length)).map
          (· - ((sink.after texts).takes texts').length)
        received := ((sink.after texts).takes texts').reverse ++
          ((sink.takes texts).reverse ++ sink.received) } := rfl
  -- What is left of the room after both parts is what is left after the second.
  rw [hafter, after, htakes, Option.map_map, List.reverse_append, List.append_assoc,
    List.length_append]
  congr 2
  funext room
  exact (Nat.sub_sub _ _ _).symm

/-- Nothing is taken of nothing. -/
@[simp] theorem takes_nil (sink : Sink) : sink.takes [] = [] := by
  obtain ⟨_ | room, flushes, received⟩ := sink
  · rfl
  · exact List.take_nil

/-- A sink without room takes nothing. -/
theorem takes_of_room_eq_zero {sink : Sink} (h : sink.room = some 0) (texts : List String) :
    sink.takes texts = [] := by
  rw [takes, h]
  exact List.take_zero

/-- A sink without room stays as it is. -/
theorem after_of_room_eq_zero {sink : Sink} (h : sink.room = some 0) (texts : List String) :
    sink.after texts = sink := by
  obtain ⟨room, flushes, received⟩ := sink
  obtain rfl : room = some 0 := h
  simp [after, takes]

/-- A sink that accepts a text has been given that text. -/
theorem write_eq_ok {sink sink' : Sink} {text : String} (h : sink.write text = .ok sink') :
    sink' = sink.after [text] := by
  rw [write] at h
  split at h
  case isTrue hempty =>
    cases h
    rw [after, takes, List.filter_cons_of_neg (by simp [hempty])]
    obtain ⟨_ | room, flushes, received⟩ := sink <;> simp
  case isFalse hempty =>
    have hfilter : [text].filter (fun text => !text.isEmpty) = [text] :=
      List.filter_eq_self.mpr (by simpa using hempty)
    split at h
    case h_1 => cases h
    case h_2 room hroom =>
      cases h
      simp only [after, takes, hfilter, hroom, List.take_succ_cons, List.take_nil]
      rfl
    case h_3 hroom =>
      cases h
      simp only [after, takes, hfilter, hroom]
      rfl

/-- A text that is not empty and that a sink accepts has been taken. -/
theorem takes_of_write_eq_ok {sink sink' : Sink} {text : String} (h : sink.write text = .ok sink')
    (htext : text.isEmpty = false) : sink.takes [text] = [text] := by
  have hfilter : [text].filter (fun text => !text.isEmpty) = [text] :=
    List.filter_eq_self.mpr (by simpa using htext)
  rw [write, if_neg (by simp [htext])] at h
  rw [takes, hfilter]
  split at h
  case h_1 => cases h
  case h_2 room hroom => simp [hroom]
  case h_3 hroom => simp [hroom]

-- The empty text takes no room, and the last one finds none.
example : ({ room := some 1 } : Sink).takes ["yes", "", "no"] = ["yes"] := by decide

/-- A text is refused only if there is no room for it. -/
theorem room_of_write_eq_error {sink : Sink} {text : String} {fault : SinkFault}
    (h : sink.write text = .error fault) : sink.room = some 0 := by
  rw [write] at h
  split at h
  · cases h
  · split at h
    case h_1 hroom => exact hroom
    case h_2 | h_3 => cases h

/-- A sink refuses a text only for being full. -/
theorem eq_full_of_write_eq_error {sink : Sink} {text : String} {fault : SinkFault}
    (h : sink.write text = .error fault) : fault = .full := by
  rw [write] at h
  split at h
  · cases h
  · split at h
    case h_1 => exact (Except.error.inj h).symm
    case h_2 | h_3 => cases h

end Sink

/-! ## Shares of the events -/

/-- The text that an event prints. -/
def Event.text? : Event → Option String
  | .printed text => some text
  | _ => none

/-- The record of an event in a trace. -/
def Event.record? (mode : TraceMode) : Event → Option TraceRecord
  | .executed step frame _ scene =>
    if mode.records frame.isSome then some (.execution step frame scene) else none
  | .printed text => some (.output text)
  | _ => none

/-- What the machine itself has to say on an event. -/
def Event.entry? : Event → Option LogEntry
  | .noticed notice => some (.notice notice)
  | .failed fault => some (.fault fault)
  | _ => none

/-- Whether an entry of the log complains about a sink. -/
def LogEntry.isComplaint : LogEntry → Bool
  | .lostOutput _ | .lostTrace _ | .unflushedOutput _ | .unflushedTrace _ => true
  | _ => false

/-- A tracer of a mode that has brought its sink this far.  It gives up only a sink without
    room. -/
inductive Tracer.Holds (mode : TraceMode) (sink : Sink) : Tracer → Prop
  | writing : Holds mode sink (.writing mode sink)
  | givenUp (h : sink.room = some 0) : Holds mode sink (.givenUp sink)

/-- The sink of a tracer that holds one is that sink. -/
theorem Tracer.Holds.sink?_eq {mode : TraceMode} {sink : Sink} {tracer : Tracer}
    (h : tracer.Holds mode sink) : tracer.sink? = some sink := by
  cases h <;> rfl

/-- A tracer that writes a record gives its sink the text, or has given up. -/
theorem Tracer.Holds.write {mode : TraceMode} {sink : Sink} {tracer : Tracer}
    (h : tracer.Holds mode sink) (record : TraceRecord) :
    (tracer.write record).1.Holds mode (sink.after [record.text]) := by
  cases h with
  | writing =>
    rw [Tracer.write]
    cases hwrite : sink.write record.text with
    | ok sink' =>
      rw [← Sink.write_eq_ok hwrite]
      exact .writing
    | error fault =>
      -- Giving up loses no more than the sink would have refused anyway.
      have hroom := Sink.room_of_write_eq_error hwrite
      rw [Sink.after_of_room_eq_zero hroom]
      exact .givenUp hroom
  | givenUp hroom =>
    rw [Sink.after_of_room_eq_zero hroom]
    exact .givenUp hroom

/-! ## The recorder -/

namespace Recorder

/-- What the log says apart from complaints about sinks, the latest first. -/
def entries (r : Recorder) : List LogEntry :=
  r.log.filter fun entry => !entry.isComplaint

/-- An entry of the log is one of the machine's unless it complains about a sink. -/
@[simp] theorem entries_note (r : Recorder) (entry : LogEntry) :
    (r.note entry).entries = if entry.isComplaint then r.entries else entry :: r.entries := by
  simp only [entries, note, List.filter_cons]
  cases entry.isComplaint <;> rfl

/-- Tracing leaves the output. -/
@[simp] theorem output_trace (r : Recorder) (record : TraceRecord) :
    (r.trace record).output = r.output := by
  unfold trace
  split <;> rfl

/-- The tracer writes the record, whatever the log has to say on that. -/
@[simp] theorem tracer_trace (r : Recorder) (record : TraceRecord) :
    (r.trace record).tracer = (r.tracer.write record).1 := by
  unfold trace
  split
  case h_1 tracer h => rw [h]
  case h_2 tracer fault h => rw [h]; rfl

/-- Tracing leaves what the machine has to say. -/
@[simp] theorem entries_trace (r : Recorder) (record : TraceRecord) :
    (r.trace record).entries = r.entries := by
  unfold trace
  split <;> rfl

/-- The output is given the text that is printed. -/
theorem output_print (r : Recorder) (text : String) :
    (r.print text).output = r.output.after [text] := by
  unfold print
  split
  case h_1 output h => exact Sink.write_eq_ok h
  case h_2 fault h => exact (Sink.after_of_room_eq_zero (Sink.room_of_write_eq_error h) _).symm

/-- Printing leaves the tracer. -/
@[simp] theorem tracer_print (r : Recorder) (text : String) :
    (r.print text).tracer = r.tracer := by
  unfold print
  split <;> rfl

/-- Printing leaves what the machine has to say. -/
@[simp] theorem entries_print (r : Recorder) (text : String) :
    (r.print text).entries = r.entries := by
  unfold print
  split <;> rfl

/-! ### A single event -/

/-- The output is given the text of an event, if it has one. -/
theorem output_observe (r : Recorder) (event : Event) :
    (r.observe event).output = r.output.after event.text?.toList := by
  cases event with
  | executed step frame rung scene =>
    rw [observe]
    split <;> simp [Event.text?]
  | printed text => rw [observe, output_trace, output_print]; rfl
  | heard _ | noticed _ | failed _ => exact (Sink.after_nil _).symm

/-- The sink of the trace is given the record of an event, if the mode has one. -/
theorem traced_observe {r : Recorder} {mode : TraceMode} {sink : Sink}
    (h : r.tracer.Holds mode sink) (event : Event) :
    (r.observe event).tracer.Holds mode
      (sink.after ((event.record? mode).map TraceRecord.text).toList) := by
  cases event with
  | executed step frame rung scene =>
    rw [observe, Event.record?]
    generalize htracer : r.tracer = tracer at h
    cases h with
    -- Whether the rung is traced is asked of the mode by both sides.
    | writing =>
      unfold Tracer.wants
      split
      · rw [tracer_trace, htracer]
        exact Tracer.Holds.writing.write _
      · rw [htracer, Option.map_none, Option.toList_none, Sink.after_nil]
        exact .writing
    | givenUp hroom =>
      rw [show (Tracer.givenUp sink).wants frame = false from rfl, if_neg Bool.false_ne_true,
        htracer, Sink.after_of_room_eq_zero hroom]
      exact .givenUp hroom
  | printed text =>
    rw [observe, tracer_trace, tracer_print]
    exact h.write _
  | heard _ | noticed _ | failed _ =>
    rw [show Event.record? mode _ = none from rfl, Option.map_none, Option.toList_none,
      Sink.after_nil]
    exact h

/-- The log is given what the machine has to say on an event. -/
theorem entries_observe (r : Recorder) (event : Event) :
    (r.observe event).entries = event.entry?.toList ++ r.entries := by
  cases event with
  | executed step frame rung scene =>
    rw [observe]
    split <;> simp [Event.entry?]
  | printed text => rw [observe, entries_trace, entries_print]; rfl
  | heard _ => rfl
  | noticed _ | failed _ => rw [observe, entries_note]; rfl

/-- Where there is no trace, none comes up. -/
theorem tracer_observe_off {r : Recorder} (h : r.tracer = .off) (event : Event) :
    (r.observe event).tracer = .off := by
  cases event with
  | executed step frame rung scene =>
    rw [observe, h]
    exact h
  | printed text => rw [observe, tracer_trace, tracer_print, h]; rfl
  | heard _ | noticed _ | failed _ => exact h

/-! ### A journal -/

/-- A journal is heard from its earliest events on. -/
theorem observeAll_append (r : Recorder) (later earlier : List Event) :
    r.observeAll (later ++ earlier) = (r.observeAll earlier).observeAll later :=
  List.foldr_append

/-- The latest event is heard last. -/
theorem observeAll_cons (r : Recorder) (event : Event) (journal : List Event) :
    r.observeAll (event :: journal) = (r.observeAll journal).observe event := rfl

/-- The output receives the texts printed, in order. -/
theorem output_observeAll (r : Recorder) (journal : List Event) :
    (r.observeAll journal).output = r.output.after (journal.reverse.filterMap Event.text?) := by
  induction journal with
  | nil => exact (Sink.after_nil _).symm
  | cons event journal ih =>
    rw [observeAll_cons, output_observe, ih, List.reverse_cons, List.filterMap_append,
      Sink.after_append]
    cases h : event.text? <;> simp [h]

/-- The sink of the trace receives the records of the mode, in order. -/
theorem traced_observeAll {r : Recorder} {mode : TraceMode} {sink : Sink}
    (h : r.tracer.Holds mode sink) (journal : List Event) :
    (r.observeAll journal).tracer.Holds mode
      (sink.after ((journal.reverse.filterMap (Event.record? mode)).map TraceRecord.text)) := by
  induction journal with
  | nil => rwa [List.reverse_nil, List.filterMap_nil, List.map_nil, Sink.after_nil]
  | cons event journal ih =>
    have hevent := traced_observe ih event
    rw [← Sink.after_append] at hevent
    rw [observeAll_cons, List.reverse_cons, List.filterMap_append, List.map_append]
    cases hrecord : event.record? mode <;> simpa [hrecord] using hevent

/-- Where there is no trace, none comes up in the whole of a journal. -/
theorem tracer_observeAll_off {r : Recorder} (h : r.tracer = .off) (journal : List Event) :
    (r.observeAll journal).tracer = .off := by
  induction journal with
  | nil => exact h
  | cons event journal ih => exact tracer_observe_off ih event

/-- The log has the entries of the machine, in order. -/
theorem entries_observeAll (r : Recorder) (journal : List Event) :
    (r.observeAll journal).entries = journal.filterMap Event.entry? ++ r.entries := by
  induction journal with
  | nil => rfl
  | cons event journal ih =>
    rw [observeAll_cons, entries_observe, ih]
    cases h : event.entry? <;> simp [h]

/-! ### The end of a run -/

/-- The end of a run prints nothing. -/
@[simp] theorem output_finish (r : Recorder) (scene : Snapshot) :
    (r.finish scene).output = r.output := by
  rw [finish, flushTrace]
  have hflush : r.flushOutput.output = r.output := by rw [flushOutput]; split <;> rfl
  split <;> simp [note, hflush]

/-- The end of a run is one more record of the trace. -/
theorem tracer_finish (r : Recorder) (scene : Snapshot) :
    (r.finish scene).tracer = (r.tracer.write (.termination scene)).1 := by
  rw [finish, flushTrace]
  have hflush : r.flushOutput.tracer = r.tracer := by rw [flushOutput]; split <;> rfl
  split <;> simp [note, hflush]

/-- What the end of a run adds to the log are complaints about sinks. -/
@[simp] theorem entries_finish (r : Recorder) (scene : Snapshot) :
    (r.finish scene).entries = r.entries := by
  rw [finish, flushTrace]
  have hflush : r.flushOutput.entries = r.entries := by
    unfold flushOutput
    split
    · rfl
    · rw [entries_note]
      rfl
  split
  · rw [entries_trace, hflush]
  · rw [entries_note, entries_trace, hflush]
    rfl

end Recorder

end Verse
