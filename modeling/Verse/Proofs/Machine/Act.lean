import Verse.Proofs.Machine.Capture
import Verse.Proofs.Machine.Edit
import Verse.Proofs.Machine.Execute

/-!
# What a rung does by itself

The acts of all rungs, put together.  Whatever a run keeps is shown act by act.

* `act_cases`     every rung does one of these
-/

namespace Verse.Machine

/-- What a rung does by itself. -/
inductive Act (m : Machine) (rung : Rung) : Signal × Machine → Prop
  /-- Edits, or none.  A rung that cannot be executed and a punctuation mark at the end of the
      tape leave no more than a remark. -/
  | effect {result : Signal × Machine} (hlisten : rung.cell ≠ .command .listen)
      (h : Effect m result) : Act m rung result
  | heaven (h : rung.cell = .command .heaven) : Act m rung (.stop .halted, m)
  /-- `Listen` puts a value of the input in front of the tape. -/
  | heard (h : rung.cell = .command .listen) {event : InputEvent}
      (hread : m.input.read.1 = some event) :
      Act m rung (.proceed, { (m.heeded.record (.heard event)).insert (m.heardRung event) 0 with
        inputEvents := m.inputEvents + 1 })
  /-- `Listen` has nothing more to read and moves the rung behind the bureaucrat. -/
  | fetched (h : rung.cell = .command .listen) {next : Rung} (hread : m.input.read.1 = none)
      (hnext : m.tape[m.bureaucrat + 1]? = some next) :
      Act m rung (.proceed, (m.heeded.erase (m.bureaucrat + 1)).insert next 0)
  /-- `Listen` has nothing more to read, and there is no rung behind the bureaucrat. -/
  | unheard (h : rung.cell = .command .listen) (hread : m.input.read.1 = none)
      (hlast : m.tape.length ≤ m.bureaucrat + 1) : Act m rung (.proceed, m.heeded)
  | captured (h : rung.cell = .punctuation) {name : Rung} {last : Nat}
      (hend : m.EndsAt name last) : Act m rung (.proceed, m.captured name last)
  | endless (h : rung.cell = .punctuation) {name : Rung}
      (hname : m.tape[m.bureaucrat + 1]? = some name)
      (hend : ∀ rung ∈ m.tape.drop (m.bureaucrat + 2), rung.endsBlockOf name = false) :
      Act m rung (m.fail .endlessBlock)

/-- Every rung does one of the acts. -/
theorem act_cases (m : Machine) (rung : Rung) : Act m rung (m.act rung) := by
  unfold act
  split
  case h_1 hcell | h_2 hcell => exact .effect (by simp [hcell]) (.proceed .refl)
  case h_3 command hcell =>
    -- `Heaven` and `Listen` are the two commands that do more than edit.
    by_cases hheaven : command = .heaven
    · subst hheaven
      exact .heaven hcell
    · by_cases hlisten : command = .listen
      · subst hlisten
        show Act m rung (.proceed, m.listen)
        obtain ⟨event, hread, h⟩ | ⟨hread, next, hnext, h⟩ | ⟨hread, hlast, h⟩ :=
          m.listen_cases <;> rw [h]
        · exact .heard hcell hread
        · exact .fetched hcell hread hnext
        · exact .unheard hcell hread hlast
      · refine .effect ?_ (m.dispatch_effect hheaven hlisten)
        rw [hcell]
        exact fun h => hlisten (Cell.command.inj h)
  case h_4 hcell => exact .effect (by simp [hcell]) (.proceed (m.edits_notice _))
  case h_5 hcell =>
    obtain ⟨-, h⟩ | ⟨name, last, hend, h⟩ | ⟨name, hname, hend, h⟩ := m.capture_cases <;> rw [h]
    · exact .effect (by simp [hcell]) (.proceed (m.edits_notice _))
    · exact .captured hcell hend
    · exact .endless hcell hname hend

end Verse.Machine
