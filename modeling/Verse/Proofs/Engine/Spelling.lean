import Verse.Proofs.Engine.Reason
import Verse.Proofs.Machine.Essence

/-!
# Spelling never matters

A program may be moved about in its text, and its words may be replaced by others that mean the
same.  As long as each rung keeps its cell and its element, the program runs as before: a run
prints the same texts, ends in the same way, and leaves the same machine but for positions and
spellings.

* `spelling_never_matters`    two programs that differ in positions and spellings
-/

namespace Verse

namespace Machine

/-- Machines that are alike have printed the same. -/
theorem Alike.printed_eq {m m' : Machine} (h : Alike m m') : m'.printed = m.printed := by
  obtain ⟨-, -, htexts⟩ := h
  rw [printed, printed, List.filterMap_reverse, List.filterMap_reverse, htexts]

end Machine

namespace Engine

/-- Two programs whose rungs have the same cells and elements run in step from the same generator
    and input, whatever the positions and the spellings of the rungs: at every point of the two
    runs the machines are alike.  If the one run ends, so does the other, with the same outcome
    and the same texts for the output.  The machines that are left have the same cursors,
    generator and remaining input, and their tapes and variables agree in cells and elements, in
    captured blocks too. -/
theorem spelling_never_matters {e e' : Engine} {program program' : List Rung}
    (hprogram : e.program = some program) (hprogram' : e'.program = some program')
    (hessence : program'.map Rung.essence = program.map Rung.essence)
    (hgenerator : e'.machine.generator = e.machine.generator)
    (hinput : e'.machine.input = e.machine.input) :
    (∀ n, Machine.Alike (e.machine.pointAt program n).machine
      (e'.machine.pointAt program' n).machine) ∧
    ∀ fuel report engine, e.run fuel = .finished report engine →
      (∃ fuel' report' engine', e'.run fuel' = .finished report' engine') ∧
      ∀ fuel' report' engine', e'.run fuel' = .finished report' engine' →
        report'.outcome = report.outcome ∧
        (∃ texts, engine.output = e.output.after texts ∧
          engine'.output = e'.output.after texts) ∧
        engine'.machine.bureaucrat = engine.machine.bureaucrat ∧
        engine'.machine.delegate = engine.machine.delegate ∧
        engine'.machine.input = engine.machine.input ∧
        engine'.machine.generator = engine.machine.generator ∧
        engine'.machine.tape.map Rung.essence = engine.machine.tape.map Rung.essence ∧
        engine'.machine.vars.essence = engine.machine.vars.essence := by
  -- The runs are in lockstep from their starts, which have nothing different but spellings.
  have hstart : Machine.Alike (e.machine.start program) (e'.machine.start program') := by
    rw [Machine.start, Machine.start, hgenerator, hinput]
    exact .intro hessence rfl rfl
  refine ⟨fun n => (Machine.lockstep_alike.pointAt hstart n).machine, fun fuel report engine h => ?_⟩
  obtain ⟨program₁, reason, m, hprogram₁, hrun, hshows⟩ := shows_of_run h
  obtain rfl := Option.some.inj (hprogram.symm.trans hprogram₁)
  obtain ⟨m', halike, ⟨fuel', hrun'⟩, hunique⟩ := Machine.lockstep_alike.run hstart hrun
  obtain ⟨report', engine', hfinished⟩ := run_eq_finished hprogram' hrun'
  refine ⟨⟨fuel', report', engine', hfinished⟩, fun fuel' report' engine' h' => ?_⟩
  obtain ⟨program₂, reason', left, hprogram₂, hrun', hshows'⟩ := shows_of_run h'
  obtain rfl := Option.some.inj (hprogram'.symm.trans hprogram₂)
  obtain ⟨rfl, rfl⟩ := Prod.mk.inj (hunique fuel' _ hrun')
  -- Machines that are alike have made the same number of steps.
  have hsteps : left.steps = m.steps := by
    obtain ⟨-, -, -⟩ := halike
    rfl
  refine ⟨by rw [hshows'.outcome, hshows.outcome, hsteps], ⟨m.printed, hshows.output, ?_⟩, ?_⟩
  · rw [hshows'.output, halike.printed_eq]
  · rw [hshows.machine, hshows'.machine]
    obtain ⟨htape, hvars, -⟩ := halike
    exact ⟨rfl, rfl, rfl, rfl, htape, hvars⟩

/-- A five, a block that counts it, and a call of the block, all on one line of the text. -/
def tallying (line : Nat) (five star count : String) : List Rung :=
  let rung (column : Nat) (name : String) (cell : Cell) : Rung :=
    { position := .source ⟨line, column⟩, name, element := .wood, cell }
  [rung 6 five (.literal 5.0), rung 5 "." .punctuation, rung 4 star (.variable "star"),
    rung 3 count (.command .count), rung 2 "." .punctuation, rung 1 star (.variable "star")]

/-- The program is moved to another line, and every word that can be is replaced. -/
theorem spelling_never_matters_tallying :
    ∃ report engine fuel' report' engine',
      ((ofSeed 0).loadRungs (tallying 1 "five" "star" "count").reverse).run 9 =
        .finished report engine ∧
      ((ofSeed 0).loadRungs (tallying 8 "hand" "stars" "numbered").reverse).run fuel' =
        .finished report' engine' ∧
      report'.outcome = report.outcome ∧ engine.output.received = ["5"] ∧
      engine'.output.received = ["5"] := by
  let e := (ofSeed 0).loadRungs (tallying 1 "five" "star" "count").reverse
  let e' := (ofSeed 0).loadRungs (tallying 8 "hand" "stars" "numbered").reverse
  have hend : (e.machine.run 9 (tallying 1 "five" "star" "count")).map
      (fun result => (result.1, result.2.printed)) = some (.ranOffEnd, ["5"]) := by
    decide +kernel
  obtain ⟨⟨reason, m⟩, hm, hresult⟩ := Option.map_eq_some_iff.mp hend
  obtain ⟨report, engine, h⟩ := run_eq_finished (e := e) rfl hm
  obtain ⟨⟨fuel', report', engine', h'⟩, hsame⟩ :=
    (@spelling_never_matters e e' _ _ rfl rfl rfl rfl rfl).2 9 report engine h
  obtain ⟨houtcome, ⟨texts, houtput, houtput'⟩, -⟩ := hsame fuel' report' engine' h'
  have hfive : engine.output.received = ["5"] := by
    obtain ⟨program, reason', m', hprogram, hm', hshows⟩ := shows_of_run h
    obtain rfl := Option.some.inj hprogram
    obtain ⟨rfl, rfl⟩ := Prod.mk.inj (Option.some.inj (hm.symm.trans hm'))
    rw [hshows.output, (Prod.mk.inj hresult).2]
    rfl
  refine ⟨report, engine, fuel', report', engine', h, h', houtcome, hfive, ?_⟩
  rw [houtput', ← hfive, houtput]
  rfl

end Engine

end Verse
