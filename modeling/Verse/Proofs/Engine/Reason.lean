import Verse.Proofs.Engine.Observation
import Verse.Proofs.Machine.Ending

/-!
# The reason of a stop

The outcome of a run gives a reason for its end, the log has the faults of the machine, and the
journal the rungs that were executed.  The three agree: a run is stopped by the one fault that
is logged, or by the `Heaven` that is executed last, or else it runs off the end of the tape.

* `countP_isError_of_shows`     the errors of a log are the faults of the machine
* `stop_reasons_are_exact`      the reason of every run that ends
-/

namespace Verse

/-- What a log and the machine that a run has left have to say on a reason for its end. -/
structure Machine.Explains (m : Machine) (log : List LogEntry) (reason : StopReason) : Prop where
  fatal_iff : reason = .fatal ↔ log.countP LogEntry.isError = 1
  halted_iff : reason = .halted ↔
    ∃ rung, m.executedRungs.getLast? = some rung ∧ rung.cell = .command .heaven
  ranOffEnd_iff : reason = .ranOffEnd ↔ log.countP LogEntry.isError ≠ 1 ∧
    ¬ ∃ rung, m.executedRungs.getLast? = some rung ∧ rung.cell = .command .heaven
  fatal : reason = .fatal → m.bureaucrat = m.tape.length
  halted : reason = .halted →
    log.countP LogEntry.isError = 0 ∧ m.bureaucrat < m.tape.length
  ranOffEnd : reason = .ranOffEnd → log.countP LogEntry.isError = 0 ∧
    (∀ rung ∈ m.executedRungs, rung.cell ≠ .command .heaven) ∧ m.bureaucrat = m.tape.length

namespace Machine

/-- If no `Heaven` has been executed, the last rung is none either. -/
theorem getLast?_ne_heaven {m : Machine}
    (h : ∀ rung ∈ m.executedRungs, rung.cell ≠ .command .heaven) :
    ¬ ∃ rung, m.executedRungs.getLast? = some rung ∧ rung.cell = .command .heaven := by
  intro hlast
  obtain ⟨rung, hrung, hheaven⟩ := hlast
  exact h rung (List.mem_of_getLast? hrung) hheaven

/-- The end that a run has come to explains the reason that it gives. -/
theorem EndedBy.explains {m : Machine} {reason : StopReason} (h : m.EndedBy reason)
    {log : List LogEntry} (hlog : log.countP LogEntry.isError = m.faults.length) :
    m.Explains log reason := by
  cases h with
  | @halted earlier rung hfaults hrungs hheaven hlt =>
    have hlast : m.executedRungs.getLast? = some rung := by rw [hrungs, List.getLast?_concat]
    rw [hfaults, List.length_nil] at hlog
    constructor <;> simp [hlog, hlast, hheaven, hlt]
  | ranOffEnd hongoing heq =>
    have hlast := getLast?_ne_heaven hongoing.rungs
    rw [hongoing.faults, List.length_nil] at hlog
    constructor <;> simp [hlog, hlast, heq]
    exact hongoing.rungs
  | fatal hfaults hrungs heq =>
    have hlast := getLast?_ne_heaven hrungs
    rw [hfaults, List.length_singleton] at hlog
    constructor <;> simp [hlog, hlast, heq]

end Machine

namespace Engine

/-- Complaints about sinks are no errors, and of what the machine has to say only its faults
    are. -/
theorem countP_isError_of_shows {e engine : Engine} {reason : StopReason} {m : Machine}
    {report : RunReport} (h : e.Shows reason m report engine) :
    report.log.countP LogEntry.isError = m.faults.length := by
  have hfilter : report.log.countP LogEntry.isError =
      (report.log.filter fun entry => !entry.isComplaint).countP LogEntry.isError := by
    rw [List.countP_filter]
    congr 1
    funext entry
    cases entry <;> rfl
  rw [hfilter, h.entries, Machine.entries, List.countP_filterMap, Machine.faults,
    List.length_filterMap_eq_countP]
  apply List.countP_congr
  intro event _
  cases event <;> rfl

/-- The reason that a run gives for its end is the right one.  A fatal end is one with a single
    error in the log, and the bureaucrat behind the tape.  A run is halted if its last rung was
    `Heaven`, with no error and the bureaucrat on the tape.  Any other run has run off the end,
    without an error and without `Heaven`.  A rung that ends the run, at whatever depth of
    blocks, is followed by no other rung, and the run ends with the machine and the output as
    they are then. -/
theorem stop_reasons_are_exact (e : Engine) {program : List Rung}
    (hprogram : e.program = some program) :
    (∀ fuel report engine, e.run fuel = .finished report engine →
      ∃ m, e.machine.run fuel program = some (report.outcome.reason, m) ∧
        engine.machine = { m with journal := [] } ∧
        m.Explains report.log report.outcome.reason) ∧
    ∀ n frame rung m₁ depth reason m₂,
      (e.machine.pointAt program n).upcoming? = some (frame, rung, m₁) →
      Machine.execute depth frame rung m₁ = some (.stop reason, m₂) →
      (∃ k, ∀ j, k ≤ j → e.machine.pointAt program j = .ended reason m₂) ∧
      (∃ fuel report engine, e.run fuel = .finished report engine) ∧
      ∀ fuel report engine, e.run fuel = .finished report engine →
        report.outcome.reason = reason ∧ engine.machine = { m₂ with journal := [] } ∧
          engine.output = e.output.after m₂.printed := by
  refine ⟨fun fuel report engine hrun => ?_, ?_⟩
  · obtain ⟨program', reason, m, hprogram', hend, hshows⟩ := shows_of_run hrun
    obtain rfl := Option.some.inj (hprogram.symm.trans hprogram')
    have hreason : report.outcome.reason = reason := by rw [hshows.outcome]
    rw [hreason]
    exact ⟨m, hend, hshows.machine,
      (Machine.endedBy_of_run hend).explains (countP_isError_of_shows hshows)⟩
  · intro n frame rung m₁ depth reason m₂ hup hexecute
    obtain ⟨hstays, fuel, hend⟩ := Machine.exists_ended_of_stop hup hexecute
    -- That end is reported, whatever becomes of the events.
    obtain ⟨report, engine, hrun⟩ := run_eq_finished hprogram hend
    refine ⟨hstays, ⟨fuel, report, engine, hrun⟩, fun fuel' report' engine' hrun' => ?_⟩
    -- However much fuel the run has, it comes to this end.
    obtain ⟨program', reason', m', hprogram', hend', hshows⟩ := shows_of_run hrun'
    obtain rfl := Option.some.inj (hprogram.symm.trans hprogram')
    obtain ⟨rfl, rfl⟩ := Prod.mk.inj (Machine.run_unique hend' hend)
    refine ⟨?_, hshows.machine, hshows.output⟩
    rw [hshows.outcome]

/-- A run of the machine whose reason is known is reported with this reason. -/
theorem exists_report_of_reason {e : Engine} {program : List Rung} {fuel : Nat}
    {reason : StopReason} (hprogram : e.program = some program)
    (h : (e.machine.run fuel program).map Prod.fst = some reason) :
    ∃ report engine, e.run fuel = .finished report engine ∧ report.outcome.reason = reason := by
  obtain ⟨⟨reason', m⟩, hend, rfl⟩ := Option.map_eq_some_iff.mp h
  obtain ⟨report, engine, hrun⟩ := run_eq_finished hprogram hend
  obtain ⟨program', reason'', m', hprogram', hend', hshows⟩ := shows_of_run hrun
  obtain rfl := Option.some.inj (hprogram.symm.trans hprogram')
  obtain ⟨rfl, -⟩ := Prod.mk.inj (Machine.run_unique hend' hend)
  exact ⟨report, engine, hrun, by rw [hshows.outcome]⟩

/-- A program that gives `star` a block with `Heaven` in it, if the block is closed, and then
    calls it. -/
def starGazing (closed : Bool) : List Rung :=
  let mark : Rung := { position := .input 0, name := ".", element := .earth, cell := .punctuation }
  let star : Rung :=
    { position := .input 1, name := "star", element := .wood, cell := .variable "star" }
  let heaven : Rung :=
    { position := .input 2, name := "heaven", element := .earth, cell := .command .heaven }
  [mark, star, heaven] ++ if closed then [mark, star] else []

/-- A run that `Heaven` halts in a block, and one that fails as its block does not end. -/
theorem stop_reasons_are_exact_starGazing :
    ∃ report engine report' engine',
      ((ofSeed 0).loadRungs (starGazing true).reverse).run 9 = .finished report engine ∧
      ((ofSeed 0).loadRungs (starGazing false).reverse).run 9 = .finished report' engine' ∧
      report.log.countP LogEntry.isError = 0 ∧
      engine.machine.bureaucrat < engine.machine.tape.length ∧
      report'.log.countP LogEntry.isError = 1 ∧
      engine'.machine.bureaucrat = engine'.machine.tape.length := by
  have hhalted : ((ofSeed 0).machine.run 9 (starGazing true)).map Prod.fst = some .halted := by
    decide +kernel
  have hfatal : ((ofSeed 0).machine.run 9 (starGazing false)).map Prod.fst = some .fatal := by
    decide +kernel
  obtain ⟨report, engine, hrun, hreason⟩ := exists_report_of_reason
    (e := (ofSeed 0).loadRungs (starGazing true).reverse) rfl hhalted
  obtain ⟨report', engine', hrun', hreason'⟩ := exists_report_of_reason
    (e := (ofSeed 0).loadRungs (starGazing false).reverse) rfl hfatal
  obtain ⟨m, -, hmachine, hexplains⟩ := (stop_reasons_are_exact _ rfl).1 9 report engine hrun
  obtain ⟨m', -, hmachine', hexplains'⟩ :=
    (stop_reasons_are_exact _ rfl).1 9 report' engine' hrun'
  refine ⟨report, engine, report', engine', hrun, hrun', ?_, ?_, ?_, ?_⟩
  · exact (hexplains.halted hreason).1
  · rw [hmachine]
    exact (hexplains.halted hreason).2
  · exact hexplains'.fatal_iff.mp hreason'
  · rw [hmachine']
    exact hexplains'.fatal hreason'

end Engine

end Verse
