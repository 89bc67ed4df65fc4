import Verse.Proofs.Machine.Inventory
import Verse.Proofs.Machine.Lockstep

/-!
# What a machine is supplied with

Random numbers come from the generator and values from the input.  Only the rungs that draw a
number look at the one, and only `Listen` looks at the other.  If a machine has no such rungs,
what it is supplied with can be exchanged, and it runs as before.

* `DoesWithout`            kinds of rungs to which an exchange does not matter
* `DoesWithout.lockstep`   machines before and after the exchange run in step
-/

namespace Verse

namespace Machine

/-- The machine with its generator and its input exchanged. -/
def supplied (swap : Generator → Generator) (pour : Input → Input) (m : Machine) : Machine :=
  { m with generator := swap m.generator, input := pour m.input }

/-- Rungs of a kind do without what is exchanged: if one of them draws a number, the generator
    stays, and if one of them is `Listen`, the input stays. -/
structure DoesWithout (P : Rung → Prop) (swap : Generator → Generator) (pour : Input → Input) :
    Prop where
  lasting : Rung.IsLasting P
  draws {rung : Rung} {command : Command} (h : P rung) (hcell : rung.cell = .command command)
    (hrange : command.range?.isSome = true) : swap = id
  listens {rung : Rung} (h : P rung) (hcell : rung.cell = .command .listen) : pour = id

/-- A machine with rungs of one kind only, before and after an exchange. -/
structure Resupplied (P : Rung → Prop) (swap : Generator → Generator) (pour : Input → Input)
    (m m' : Machine) : Prop where
  eq_supplied : m' = m.supplied swap pour
  rungs : m.AllRungs P

variable {P : Rung → Prop} {swap : Generator → Generator} {pour : Input → Input}

/-- An exchange leaves the tape. -/
theorem tape_supplied (m : Machine) : (m.supplied swap pour).tape = m.tape := rfl

/-- Writing does not depend on what the machine is supplied with. -/
theorem assignAt_supplied (m : Machine) (index : Nat) (value : Float) (source : Option Element) :
    (m.supplied swap pour).assignAt index value source =
      (m.assignAt index value source).supplied swap pour := by
  rw [assignAt, assignAt, tape_supplied]
  cases m.tape[index]? with
  | none => rfl
  | some rung => cases h : rung.cell <;> simp only [h] <;> rfl

/-- Neither does advancing an element. -/
theorem advanceAt_supplied (m : Machine) (index : Nat) (relation : Relation) :
    (m.supplied swap pour).advanceAt index relation =
      (m.advanceAt index relation).supplied swap pour := by
  rw [advanceAt, advanceAt, tape_supplied]
  cases m.tape[index]? with
  | none => rfl
  | some rung => cases h : rung.cell <;> simp only [h] <;> rfl

/-- A block that is captured does not depend on what the machine is supplied with. -/
theorem capture_supplied (m : Machine) :
    (m.supplied swap pour).capture = (m.capture.1, m.capture.2.supplied swap pour) := by
  have hbureaucrat : (m.supplied swap pour).bureaucrat = m.bureaucrat := rfl
  rw [capture, capture, hbureaucrat, tape_supplied]
  dsimp only
  cases m.tape[m.bureaucrat + 1]? with
  | none => rfl
  | some name =>
    dsimp only
    split
    · cases name.variableName? <;> rfl
    · rfl

/-- What a rung is read as does not depend on what the machine is supplied with, unless it draws a
    number from another generator. -/
theorem readAt_supplied {m : Machine} {index : Nat}
    (hdraws : ∀ {rung : Rung} {command : Command}, m.tape[index]? = some rung →
      rung.cell = .command command → command.range?.isSome = true → swap = id) :
    (m.supplied swap pour).readAt index =
      ((m.readAt index).1, (m.readAt index).2.supplied swap pour) := by
  rw [readAt, readAt, tape_supplied]
  cases hrung : m.tape[index]? with
  | none => rfl
  | some rung =>
    dsimp only
    cases hcell : rung.cell with
    | literal _ | «variable» _ | invalid _ | punctuation => rfl
    | command command =>
      cases hrange : command.range? with
      | none => simp only [read, hrange]
      | some range =>
        -- The generator is used, so it is the same.
        obtain rfl := hdraws hrung hcell (by rw [hrange]; rfl)
        simp only [read, hrange]
        rfl

/-- What `Listen` leaves of the input. -/
theorem input_listen (m : Machine) : m.listen.input = m.input.read.2 := by
  obtain ⟨event, -, h⟩ | ⟨-, next, -, h⟩ | ⟨-, -, h⟩ := m.listen_cases <;> rw [h] <;> rfl

/-- `Listen` depends on nothing that the machine is supplied with but the value that it reads. -/
theorem listen_supplied {m : Machine} (hvalue : (pour m.input).read.1 = m.input.read.1)
    (hgarbled : (pour m.input).isGarbled = m.input.isGarbled) :
    (m.supplied swap pour).listen = m.listen.supplied swap fun _ => (pour m.input).read.2 := by
  have hheeded : (m.supplied swap pour).heeded =
      m.heeded.supplied swap fun _ => (pour m.input).read.2 := by
    have hsupplied : (m.supplied swap pour).input.isGarbled = m.input.isGarbled := hgarbled
    rw [heeded, heeded, hsupplied]
    split <;> rfl
  obtain ⟨event, hread, hlisten⟩ | ⟨hread, next, hnext, hlisten⟩ | ⟨hread, hlast, hlisten⟩ :=
    m.listen_cases
  · -- The same value is read, and put in front of the same tape.
    rw [hlisten, listen_of_event (m := m.supplied swap pour) (hvalue.trans hread), hheeded]
    rfl
  · -- Neither has a value to read, and the same rung is moved.
    rw [hlisten, listen_of_next (m := m.supplied swap pour) (hvalue.trans hread) hnext, hheeded]
    rfl
  · -- Neither has a value to read, and there is no rung to be moved.
    rw [hlisten, listen_of_end (m := m.supplied swap pour) (hvalue.trans hread) hlast, hheeded]

namespace DoesWithout

variable (hP : DoesWithout P swap pour) {m m' : Machine}

include hP

/-- A rung that listens is of the kind, so the input has not been exchanged. -/
theorem listen {rung : Rung} (h : P rung) (hcell : rung.cell = .command .listen) :
    (m.supplied swap pour).listen = m.listen.supplied swap pour := by
  obtain rfl := hP.listens h hcell
  rw [listen_supplied rfl rfl, supplied, supplied, input_listen]
  rfl

/-- Commands see nothing of an exchange that the rungs do without. -/
theorem agreement : Agreement (Resupplied P swap pour) where
  bureaucrat h := by obtain ⟨rfl, -⟩ := h; rfl
  delegate h := by obtain ⟨rfl, -⟩ := h; rfl
  moved h := by obtain ⟨rfl, -⟩ := h; rfl
  length h := by obtain ⟨rfl, -⟩ := h; rfl
  elementAt h _ := by obtain ⟨rfl, -⟩ := h; rfl
  name h _ := by obtain ⟨rfl, -⟩ := h; rfl
  readAt {m m'} h index := by
    obtain ⟨rfl, hrungs⟩ := h
    obtain ⟨generator, hdraw⟩ := m.exists_generator_readAt index
    -- A rung that draws is of the kind, so its draw rules the exchange out.
    rw [readAt_supplied fun hrung => hP.draws (hrungs.getElem? hrung)]
    refine ⟨rfl, rfl, ?_⟩
    rw [hdraw]
    exact ⟨hrungs.tape, hrungs.blocks⟩
  record h _ _ := by
    obtain ⟨rfl, hrungs⟩ := h
    exact ⟨rfl, hrungs.tape, hrungs.blocks⟩
  unrelated h _ _ _ _ _ _ := by
    obtain ⟨rfl, hrungs⟩ := h
    exact ⟨rfl, hrungs.tape, hrungs.blocks⟩
  place h _ _ _ := by
    obtain ⟨rfl, hrungs⟩ := h
    exact ⟨rfl, hrungs.tape, hrungs.blocks⟩
  assignAt {m m'} h index value source hs := by
    obtain ⟨rfl, hrungs⟩ := h
    exact ⟨m.assignAt_supplied index value source,
      hrungs.edits hP.lasting (m.edits_assignAt index value hs)⟩
  advanceAt h index relation hvalue := by
    obtain ⟨rfl, hrungs⟩ := h
    exact ⟨advanceAt_supplied _ index relation,
      hrungs.edits hP.lasting (edits_advanceAt relation hvalue)⟩
  ascend h index rung hrung hcell := by
    obtain ⟨rfl, hrungs⟩ := h
    refine ⟨rfl, hrungs.edit hP.lasting ?_⟩
    rw [modify_eq_set hrung]
    exact .change hrung (.ascend hcell)

/-- An exchange is kept up by everything that rungs of the kind do. -/
theorem lockstep : Lockstep (Resupplied P swap pour) (SameOf P) where
  agreement := hP.agreement
  tape h index := by
    obtain ⟨rfl, hrungs⟩ := h
    exact hrungs.rel_tape index
  block h name := by
    obtain ⟨rfl, hrungs⟩ := h
    exact hrungs.rel_block? name
  cell h := by rw [h.1]
  begin h hrung frame := by
    obtain ⟨rfl, hrungs⟩ := h
    obtain ⟨rfl, -⟩ := hrung
    exact ⟨rfl, hrungs.tape, hrungs.blocks⟩
  act {m m' rung rung'} h hrung := by
    obtain ⟨rfl, hkind⟩ := hrung
    refine hP.agreement.act h rfl (fun hcell => ?_) (fun _ _ => ?_) (fun _ => ?_)
    · -- `Listen` reads the same value, since what listens does without another input.
      obtain ⟨rfl, hrungs⟩ := h
      exact ⟨hP.listen hkind hcell, hrungs.listen hP.lasting⟩
    · obtain ⟨rfl, hrungs⟩ := h
      exact ⟨rfl, hrungs.tape, hrungs.blocks⟩
    · obtain ⟨rfl, hrungs⟩ := h
      rw [capture_supplied]
      exact ⟨rfl, rfl, hrungs.capture⟩

end DoesWithout

end Machine

end Verse
