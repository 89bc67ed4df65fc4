import Verse.Proofs.Engine.Reason

/-!
# What a run leaves behind

An engine can be loaded, run, edited and run again in any order, and a run leaves a tape that
has been rewritten, variables, counters and cursors wherever it ended.  None of this reaches
the next run: it goes as it would on an engine that has just been built and loaded.

* `program_of_after`             the program is the one loaded last, whatever was done since
* `map_settled_loop_rewind`      clearing a machine in place is as good as a new machine
* `nothing_survives_a_run`       a run after any history is a run of a new engine
-/

namespace Verse

namespace Machine

/-- Put a program onto the tape, and clear what an earlier run has left.  The flag that says
    whether the rung being executed has moved the bureaucrat stays as that run left it. -/
def rewind (m : Machine) (program : List Rung) : Machine :=
  { m with
    tape := program, bureaucrat := 0, delegate := 0, vars := .empty
    steps := 0, inputEvents := 0, journal := [] }

/-- The machine between two rungs, when no rung is there to have moved the bureaucrat. -/
def settled (m : Machine) : Machine :=
  { m with moved := false }

/-- With its flag cleared, the machine that is cleared in place is a new one. -/
theorem settled_rewind (m : Machine) (program : List Rung) :
    (m.rewind program).settled = m.start program := rfl

/-- A step that executes a rung clears the flag before it. -/
theorem step_settled {m : Machine} {rung : Rung} (h : m.tape[m.bureaucrat]? = some rung)
    (depth : Nat) : m.settled.step depth = m.step depth := by
  have hsettled : m.settled.tape[m.settled.bureaucrat]? = some rung := h
  simp only [step, h, hsettled]
  rfl

/-- The flag does not matter to the steps to come. -/
theorem map_settled_loop (m : Machine) (depth limit : Nat) :
    (m.settled.loop depth limit).map (Prod.map id settled) =
      (m.loop depth limit).map (Prod.map id settled) := by
  cases limit with
  | zero => rfl
  | succ limit =>
    cases hrung : m.tape[m.bureaucrat]? with
    | none =>
      -- The run is over, with the flag as it is.
      have hsettled : m.settled.tape[m.settled.bureaucrat]? = none := hrung
      simp only [loop, step, hrung, hsettled]
      rfl
    | some rung =>
      rw [loop, loop, step_settled hrung]

/-- A run from a machine that has been cleared in place comes to the same end as one from a new
    machine. -/
theorem map_settled_loop_rewind (m : Machine) (program : List Rung) (fuel : Nat) :
    ((m.rewind program).loop fuel fuel).map (Prod.map id settled) =
      (m.run fuel program).map (Prod.map id settled) := by
  rw [run, ← settled_rewind, map_settled_loop]

end Machine

namespace Engine

/-- The engines that loads, runs, edits and settings can lead to, with the rungs that were
    loaded last, in the order of the program text.  The generator that an engine is built with
    and the input that it is given can be any. -/
inductive After : Option (List Rung) → Engine → Prop where
  | built (generator : Generator) (mode : TraceMode) (output : Sink) :
      After none { machine := { generator }, mode, output }
  | load {loaded : Option (List Rung)} {e : Engine} (h : After loaded e) (lexicon : Lexicon)
      (tokens : List Token) :
      After (some (tokens.map (Rung.ofToken lexicon))) (e.load lexicon tokens)
  | loadRungs {loaded : Option (List Rung)} {e : Engine} (h : After loaded e)
      (rungs : List Rung) : After (some rungs) (e.loadRungs rungs)
  | setInput {loaded : Option (List Rung)} {e : Engine} (h : After loaded e) (input : Input) :
      After loaded (e.setInput input)
  | run {loaded : Option (List Rung)} {e e' : Engine} {fuel : Nat} {report : RunReport}
      (h : After loaded e) (hrun : e.run fuel = .finished report e') : After loaded e'
  | insert {loaded : Option (List Rung)} {e e' : Engine} {rung : Rung} {index : Nat}
      (h : After loaded e) (hinsert : e.insert? rung index = some e') : After loaded e'
  | erase {loaded : Option (List Rung)} {e e' : Engine} {rung : Rung} {index : Nat}
      (h : After loaded e) (herase : e.erase? index = some (rung, e')) : After loaded e'
  | setTraceSink {loaded : Option (List Rung)} {e : Engine} (h : After loaded e) (sink : Sink) :
      After loaded (e.setTraceSink sink)
  | toggleTrace {loaded : Option (List Rung)} {e : Engine} (h : After loaded e) :
      After loaded e.toggleTrace

/-- A run keeps the program, however it ends. -/
theorem program_of_run {e e' : Engine} {fuel : Nat} {report : RunReport}
    (h : e.run fuel = .finished report e') : e'.program = e.program := by
  rw [Engine.run] at h
  split at h
  case h_1 => cases h
  case h_2 program hprogram =>
    split at h
    case h_1 => cases h
    case h_2 report' engine hrun =>
      cases h
      obtain ⟨result, -, heq⟩ := Option.map_eq_some_iff.mp hrun
      cases heq
      rfl

/-- Putting in a rung keeps the program. -/
theorem program_of_insert? {e e' : Engine} {rung : Rung} {index : Nat}
    (h : e.insert? rung index = some e') : e'.program = e.program := by
  obtain ⟨m, -, rfl⟩ := Option.map_eq_some_iff.mp h
  rfl

/-- Taking out a rung keeps the program. -/
theorem program_of_erase? {e e' : Engine} {rung : Rung} {index : Nat}
    (h : e.erase? index = some (rung, e')) : e'.program = e.program := by
  obtain ⟨result, -, heq⟩ := Option.map_eq_some_iff.mp h
  cases heq
  rfl

/-- The tape may have been changed since, but the program is as it was loaded. -/
theorem program_of_after {loaded : Option (List Rung)} {e : Engine} (h : After loaded e) :
    e.program = loaded.map List.reverse := by
  -- Only loading sets the program, and nothing else touches it.
  induction h with
  | built | load | loadRungs => rfl
  | setInput _ _ ih | setTraceSink _ _ ih | toggleTrace _ ih => exact ih
  | run _ hrun ih => exact (program_of_run hrun).trans ih
  | insert _ hinsert ih => exact (program_of_insert? hinsert).trans ih
  | erase _ herase ih => exact (program_of_erase? herase).trans ih

/-- A new engine that has just loaded some rungs, with the generator, the streams and the
    settings of another one. -/
def renewed (e : Engine) (rungs : List Rung) : Engine :=
  let new : Engine :=
    { machine := { generator := e.machine.generator }, mode := e.mode, output := e.output }
  ({ new.setInput e.machine.input with traceSink := e.traceSink } : Engine).loadRungs rungs

/-- The new engine has a history too: it is set up and loaded. -/
theorem after_renewed (e : Engine) (rungs : List Rung) : After (some rungs) (e.renewed rungs) := by
  have hbuilt := (After.built e.machine.generator e.mode e.output).setInput e.machine.input
  rw [renewed]
  cases e.traceSink with
  | none => exact hbuilt.loadRungs rungs
  | some sink => exact (hbuilt.setTraceSink sink).loadRungs rungs

/-- After any history, the loaded program runs as it would on a new engine, which has done
    nothing but be set up and loaded: with any fuel both attempts come to the same, in the
    outcome, the log and the trace, in the output, and in the machine that is left with its tape,
    cursors, variables, generator and input.  Nor does it matter whether the machine is built
    anew for the run, or cleared in place with its flag left as it was. -/
theorem nothing_survives_a_run {rungs : List Rung} {e : Engine} (h : After (some rungs) e) :
    After (some rungs) (e.renewed rungs) ∧
    (∀ fuel, e.run fuel = (e.renewed rungs).run fuel) ∧
    ∀ fuel, ((e.machine.rewind rungs.reverse).loop fuel fuel).map (Prod.map id Machine.settled) =
      ((e.renewed rungs).machine.run fuel rungs.reverse).map (Prod.map id Machine.settled) := by
  -- Of the machine that the history has left, only the generator and the input are looked at.
  have hprogram : e.program = some rungs.reverse := program_of_after h
  have hstart : e.machine.start rungs.reverse = (e.renewed rungs).machine.start rungs.reverse :=
    Machine.start_congr rfl rfl _
  have hrun : ∀ fuel, e.machine.run fuel rungs.reverse =
      (e.renewed rungs).machine.run fuel rungs.reverse := by
    intro fuel
    rw [Machine.run, Machine.run, hstart]
  refine ⟨e.after_renewed rungs, fun fuel => ?_, fun fuel => ?_⟩
  · -- The same program, the same run, and the same report of it.
    have hrenewed : (e.renewed rungs).program = some rungs.reverse := rfl
    have hconclude : e.conclude = (e.renewed rungs).conclude := by
      funext reason m
      simp only [conclude, hprogram]
      rfl
    simp only [Engine.run, runProgram_eq, hprogram, hrenewed, hrun, hconclude]
  · rw [Machine.map_settled_loop_rewind, hrun]

/-- A program that binds `star`, moves the delegate to a four, changes the element of the four,
    and then sends the bureaucrat past the end of the tape. -/
def overreaching : List Rung :=
  let rung (name : String) (cell : Cell) : Rung :=
    { position := .input 1, name, element := .wood, cell }
  [rung "." .punctuation, rung "star" (.variable "star"), rung "heaven" (.command .heaven),
    rung "." .punctuation, rung "four" (.literal 4.0), rung "rise" (.command .rise),
    rung "create" (.command .create), rung "promote" (.command .promote)]

/-- The program overreaches, a rung is put before it, and it is run again with a trace. -/
theorem nothing_survives_a_run_overreaching :
    ∃ e report engine, After (some overreaching.reverse) e ∧
      e.machine.moved = true ∧ e.machine.delegate = 5 ∧
      (e.machine.tape.map Rung.element)[5]? = some .fire ∧
      (e.machine.vars.block? "star").isSome = true ∧
      e.run 9 = .finished report engine ∧
      (e.renewed overreaching.reverse).run 9 = .finished report engine ∧
      report.outcome.reason = .fatal := by
  let loaded := (ofSeed 0).loadRungs overreaching.reverse
  let four : Rung :=
    { position := .input 1, name := "four", element := .wood, cell := .literal 4.0 }
  have hfatal : (loaded.machine.run 9 overreaching).map Prod.fst = some .fatal := by
    decide +kernel
  have hdirty : (loaded.machine.run 9 overreaching).map (fun result =>
      (result.2.moved, result.2.delegate, (result.2.tape.map Rung.element)[4]?,
        (result.2.vars.block? "star").isSome)) = some (true, 4, some .fire, true) := by
    decide +kernel
  have hstreams : (loaded.machine.run 9 overreaching).map (fun result =>
      (result.2.generator, result.2.input)) = some ((ofSeed 0).machine.generator, .empty) := by
    decide +kernel
  obtain ⟨first, left, hrun, -⟩ := exists_report_of_reason (e := loaded) rfl hfatal
  obtain ⟨program, reason, m, hprogram, hend, hshows⟩ := shows_of_run hrun
  obtain rfl : overreaching = program := Option.some.inj hprogram
  rw [hend] at hdirty hstreams
  simp only [Option.map_some, Option.some.injEq, Prod.mk.injEq] at hdirty hstreams
  obtain ⟨hmoved, hdelegate, hfire, hstar⟩ := hdirty
  -- The engine that is left gets a rung, a trace mode and a sink.
  let e := ({ left with machine := left.machine.insert four 0 }.toggleTrace).setTraceSink {}
  have hmachine : e.machine = { m with journal := [] }.insert four 0 :=
    congrArg (Machine.insert · four 0) hshows.machine
  have hafter : After (some overreaching.reverse) e := by
    have hrun' := ((After.built (.ofSeed 0) .off {}).loadRungs overreaching.reverse).run hrun
    have hinsert : left.insert? four 0 =
        some { left with machine := left.machine.insert four 0 } := by
      rw [insert?, Machine.insert?, if_pos (Nat.zero_le _)]
      rfl
    exact ((hrun'.insert hinsert).toggleTrace).setTraceSink {}
  have hagain : (e.machine.run 9 overreaching).map Prod.fst = some .fatal := by
    have hstart : e.machine.start overreaching = loaded.machine.start overreaching := by
      rw [hmachine]
      exact Machine.start_congr hstreams.1 hstreams.2 overreaching
    rw [Machine.run, hstart]
    exact hfatal
  have hprogram' : e.program = some overreaching := program_of_after hafter
  obtain ⟨report, engine, hrun', hreason⟩ := exists_report_of_reason hprogram' hagain
  refine ⟨e, report, engine, hafter, ?_, ?_, ?_, ?_, hrun', ?_, hreason⟩
  · simp [hmachine, Machine.insert, hmoved]
  · simp [hmachine, Machine.insert, hdelegate]
  · rw [hmachine]
    exact hfire
  · simp [hmachine, Machine.insert, hstar]
  · rw [← (nothing_survives_a_run hafter).2.1 9]
    exact hrun'

end Engine

end Verse
