import Verse.Proofs.Engine.Reason
import Verse.Proofs.Machine.Supply

/-!
# Random numbers and input on demand

A program that never asks for random numbers runs alike for every seed, and one that never
listens runs alike for every input.  Nothing that such a program does not ask for is used up.

* `run_supplied`                 runs of an engine before and after an exchange
* `supplies_only_on_demand`      programs without `Few` and `Many`, and without `Listen`
-/

namespace Verse

namespace Machine

/-- Without `Few` and `Many` any generator will do. -/
theorem doesWithout_generator (generator : Generator) :
    DoesWithout (fun rung => rung.cell ≠ .command .few ∧ rung.cell ≠ .command .many)
      (fun _ => generator) id where
  lasting := (Rung.isLasting_ne_command (by decide)).and (Rung.isLasting_ne_command (by decide))
  draws {rung command} h hcell hrange := by
    rw [hcell] at h
    cases command with
    | few => exact absurd rfl h.1
    | many => exact absurd rfl h.2
    | _ => cases hrange
  listens _ _ := rfl

/-- Without `Listen` any input will do. -/
theorem doesWithout_input (input : Input) :
    DoesWithout (fun rung => rung.cell ≠ .command .listen) id (fun _ => input) where
  lasting := Rung.isLasting_ne_command (by decide)
  draws _ _ _ := rfl
  listens h hcell := absurd hcell h

variable {P : Rung → Prop} {swap : Generator → Generator} {pour : Input → Input}

/-- What the rungs of a program do without is not used in a run of it. -/
theorem DoesWithout.supplied_pointAt (hP : DoesWithout P swap pour) {m : Machine}
    {program : List Rung} (hrungs : ∀ rung ∈ program, P rung) (n : Nat) :
    ((m.supplied swap pour).pointAt program n).machine =
        (m.pointAt program n).machine.supplied swap pour ∧
      (m.pointAt program n).machine.AllRungs P := by
  have hstart : Resupplied P swap pour (m.start program) ((m.supplied swap pour).start program) :=
    ⟨rfl, m.allRungs_start hrungs⟩
  obtain ⟨heq, hall⟩ := (hP.lockstep.pointAt hstart n).machine
  exact ⟨heq, hall⟩

end Machine

namespace Engine

/-- The engine with the generator and the input of its machine exchanged. -/
def supplied (swap : Generator → Generator) (pour : Input → Input) (e : Engine) : Engine :=
  { e with machine := e.machine.supplied swap pour }

/-- The engine with another generator. -/
def setGenerator (e : Engine) (generator : Generator) : Engine :=
  { e with machine := { e.machine with generator } }

variable {P : Rung → Prop} {swap : Generator → Generator} {pour : Input → Input}

/-- A run that ends also ends after an exchange of what its rungs do without, and it ends in the
    very same way, with the exchange as it was. -/
theorem run_supplied (hP : Machine.DoesWithout P swap pour) {e : Engine} {program : List Rung}
    (hprogram : e.program = some program) (hrungs : ∀ rung ∈ program, P rung) {fuel : Nat}
    {report : RunReport} {engine : Engine} (h : e.run fuel = .finished report engine) :
    (∃ fuel', (e.supplied swap pour).run fuel' = .finished report (engine.supplied swap pour)) ∧
    ∀ fuel' report' engine', (e.supplied swap pour).run fuel' = .finished report' engine' →
      report' = report ∧ engine' = engine.supplied swap pour := by
  have hprogram' : (e.supplied swap pour).program = some program := hprogram
  obtain ⟨reason, m, hrun, hconclude⟩ := (run_eq_finished_iff hprogram).mp h
  have hstart : Machine.Resupplied P swap pour (e.machine.start program)
      ((e.machine.supplied swap pour).start program) := ⟨rfl, e.machine.allRungs_start hrungs⟩
  obtain ⟨m', ⟨rfl, -⟩, ⟨fuel', hrun'⟩, hunique⟩ := hP.lockstep.run hstart hrun
  have hconclude' : (e.supplied swap pour).conclude reason (m.supplied swap pour) =
      (report, engine.supplied swap pour) := by
    rw [← (Prod.mk.inj hconclude).1, ← (Prod.mk.inj hconclude).2]
    rfl
  -- The same fuel need not do for both, but no other end can be reached with any.
  refine ⟨⟨fuel', (run_eq_finished_iff hprogram').mpr ⟨reason, _, hrun', hconclude'⟩⟩, ?_⟩
  intro fuel' report' engine' h'
  obtain ⟨reason', left, hrun', hleft⟩ := (run_eq_finished_iff hprogram').mp h'
  obtain ⟨rfl, rfl⟩ := Prod.mk.inj (hunique fuel' _ hrun')
  exact Prod.mk.inj (hleft.symm.trans hconclude')

/-- What a run leaves of the supplies that its rungs do without is what it was given. -/
theorem supplied_of_run (hP : Machine.DoesWithout P swap pour) {e : Engine} {program : List Rung}
    (hprogram : e.program = some program) (hrungs : ∀ rung ∈ program, P rung)
    (hsame : e.machine.supplied swap pour = e.machine) {fuel : Nat} {report : RunReport}
    {engine : Engine} (h : e.run fuel = .finished report engine) :
    engine.machine.supplied swap pour = engine.machine := by
  have he : e.supplied swap pour = e := by rw [supplied, hsame]
  -- The run after the exchange is the run itself.
  have hengine := ((run_supplied hP hprogram hrungs h).2 fuel report engine (by rwa [he])).2
  exact (congrArg Engine.machine hengine).symm

/-- A program asks for random numbers with `Few` and `Many`, and for input with `Listen`.

    If it has no `Few` and no `Many`, none of them ever gets onto the tape or into a block, and at
    every point of a run the generator is as it was at the start.  If the run ends, it ends with
    any other generator too, in the same way only: with the same outcome, log and trace, and with
    the same output, tape and variables left, as the engine differs in nothing but the generator,
    which is still the one that was given.

    If it has no `Listen`, the same is true of the input: at every point of a run it is as it was
    at the start, no line having been fetched, and any other input would do. -/
theorem supplies_only_on_demand {e : Engine} {program : List Rung}
    (hprogram : e.program = some program) :
    ((∀ rung ∈ program, rung.cell ≠ .command .few ∧ rung.cell ≠ .command .many) →
      (∀ n, (e.machine.pointAt program n).machine.generator = e.machine.generator ∧
        (e.machine.pointAt program n).machine.AllRungs fun rung =>
          rung.cell ≠ .command .few ∧ rung.cell ≠ .command .many) ∧
      ∀ fuel report engine, e.run fuel = .finished report engine →
        engine.machine.generator = e.machine.generator ∧
        ∀ generator,
          (∃ fuel', (e.setGenerator generator).run fuel' =
            .finished report (engine.setGenerator generator)) ∧
          ∀ fuel' report' engine', (e.setGenerator generator).run fuel' =
            .finished report' engine' →
              report' = report ∧ engine' = engine.setGenerator generator) ∧
    ((∀ rung ∈ program, rung.cell ≠ .command .listen) →
      (∀ n, (e.machine.pointAt program n).machine.input = e.machine.input ∧
        (e.machine.pointAt program n).machine.AllRungs fun rung =>
          rung.cell ≠ .command .listen) ∧
      ∀ fuel report engine, e.run fuel = .finished report engine →
        engine.machine.input = e.machine.input ∧
        ∀ input,
          (∃ fuel', (e.setInput input).run fuel' = .finished report (engine.setInput input)) ∧
          ∀ fuel' report' engine', (e.setInput input).run fuel' = .finished report' engine' →
            report' = report ∧ engine' = engine.setInput input) := by
  refine ⟨fun hrungs => ⟨fun n => ?_, fun fuel report engine h => ⟨?_, fun generator => ?_⟩⟩,
    fun hrungs => ⟨fun n => ?_, fun fuel report engine h => ⟨?_, fun input => ?_⟩⟩⟩
  · -- Without random numbers: what a point of the run has, and that nothing but the program's
    -- rungs ever gets there.
    have hP := Machine.doesWithout_generator e.machine.generator
    obtain ⟨heq, hall⟩ := hP.supplied_pointAt (m := e.machine) hrungs n
    have hgenerator := congrArg Machine.generator heq
    exact ⟨hgenerator, hall⟩
  · -- The exchange for the very generator that the machine has changes nothing, so that the run
    -- leaves it.
    have hP := Machine.doesWithout_generator e.machine.generator
    exact (congrArg Machine.generator (supplied_of_run hP hprogram hrungs rfl h)).symm
  · exact run_supplied (Machine.doesWithout_generator generator) hprogram hrungs h
  · -- Without input: the same three parts.
    have hP := Machine.doesWithout_input e.machine.input
    obtain ⟨heq, hall⟩ := hP.supplied_pointAt (m := e.machine) hrungs n
    have hinput := congrArg Machine.input heq
    exact ⟨hinput, hall⟩
  · have hP := Machine.doesWithout_input e.machine.input
    exact (congrArg Machine.input (supplied_of_run hP hprogram hrungs rfl h)).symm
  · exact run_supplied (Machine.doesWithout_input input) hprogram hrungs h

/-- A program that counts a five, with another seed, and with a stream that is left unread. -/
theorem supplies_only_on_demand_counting :
    ∃ report engine, (counting .off {} none).run 9 = .finished report engine ∧
      engine.output.received = ["5"] ∧
      (∃ fuel', ((counting .off {} none).setGenerator (.ofSeed 99)).run fuel' =
        .finished report (engine.setGenerator (.ofSeed 99))) ∧
      ∃ fuel', ((counting .off {} none).setInput (.unread [53, 10])).run fuel' =
        .finished report (engine.setInput (.unread [53, 10])) := by
  obtain ⟨report, engine, h⟩ : ∃ report engine,
      (counting .off {} none).run 9 = .finished report engine := ⟨_, _, rfl⟩
  obtain ⟨hchance, hinput⟩ := supplies_only_on_demand (e := counting .off {} none) rfl
  refine ⟨report, engine, h, ?_, ?_, ?_⟩
  · cases h
    decide +kernel
  · exact (((hchance (by decide +kernel)).2 9 report engine h).2 (.ofSeed 99)).1
  · exact (((hinput (by decide +kernel)).2 9 report engine h).2 (.unread [53, 10])).1

end Engine

end Verse
