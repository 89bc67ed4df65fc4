import Verse.Proofs.Machine.Lockstep
import Verse.Proofs.Recorder

/-!
# What matters about a rung

What a rung does depends on its cell and its element.  Where it comes from and how it is spelled
shows in remarks and in traces only.  Two machines that differ in nothing else therefore run in
step.

* `Alike`              machines that are the same but for positions and spellings
* `lockstep_alike`     they stay so, whatever is executed
-/

namespace Verse

/-- What matters about a rung: its cell and its element. -/
def Rung.essence (rung : Rung) : Cell × Element :=
  (rung.cell, rung.element)

/-- What matters about what a variable holds: a number, or what matters about the rungs of a
    block. -/
def Binding.essence : Binding → Float ⊕ List (Cell × Element)
  | .value number => .inl number
  | .block rungs => .inr (rungs.map Rung.essence)

/-- What matters about a variable. -/
def Variable.essence (v : Variable) : Element × (Float ⊕ List (Cell × Element)) :=
  (v.element, v.binding.essence)

/-- What matters about the variables, by their names. -/
def Variables.essence (vars : Variables) (name : String) :
    Option (Element × (Float ⊕ List (Cell × Element))) :=
  (vars.get? name).map Variable.essence

/-- Two rungs that differ in their positions and spellings at most. -/
def Rung.SameEssence (rung rung' : Rung) : Prop :=
  rung'.essence = rung.essence

/-- Such rungs have the same cell. -/
theorem Rung.SameEssence.cell_eq {rung rung' : Rung} (h : rung.SameEssence rung') :
    rung'.cell = rung.cell :=
  congrArg Prod.fst h

/-- Such rungs have the same element. -/
theorem Rung.SameEssence.element_eq {rung rung' : Rung} (h : rung.SameEssence rung') :
    rung'.element = rung.element :=
  congrArg Prod.snd h

/-- Such rungs are the same variable, if any. -/
theorem Rung.SameEssence.variableName?_eq {rung rung' : Rung} (h : rung.SameEssence rung') :
    rung'.variableName? = rung.variableName? := by
  rw [variableName?, variableName?, h.cell_eq]

/-! ## Tapes and blocks -/

/-- Options with the same images are empty together, or hold values with the same image. -/
theorem option_rel_of_map_eq {α β : Type} {f : α → β} {a a' : Option α}
    (h : a'.map f = a.map f) : Option.Rel (fun x x' => f x' = f x) a a' := by
  cases a <;> cases a' <;> simp at h
  · exact .none
  · exact .some h

section

variable {rungs rungs' : List Rung}

/-- The rungs at one index differ no more than the tapes do. -/
theorem rel_getElem?_of_essence (h : rungs'.map Rung.essence = rungs.map Rung.essence)
    (index : Nat) : Option.Rel Rung.SameEssence rungs[index]? rungs'[index]? := by
  refine option_rel_of_map_eq ?_
  rw [← List.getElem?_map, ← List.getElem?_map, h]

/-- The rungs are related one by one. -/
theorem forall₂_of_essence (h : rungs'.map Rung.essence = rungs.map Rung.essence) :
    List.Forall₂ Rung.SameEssence rungs rungs' := by
  have hmap : List.Forall₂ Eq (rungs.map Rung.essence) (rungs'.map Rung.essence) := by
    rw [List.forall₂_eq_eq_eq]
    exact h.symm
  rw [List.forall₂_map_left_iff, List.forall₂_map_right_iff] at hmap
  exact hmap.imp fun _ _ => Eq.symm

/-- Such tapes have the same length. -/
theorem length_eq_of_essence (h : rungs'.map Rung.essence = rungs.map Rung.essence) :
    rungs'.length = rungs.length := by
  simpa using congrArg List.length h

/-- Changing a rung in a way that its position and its spelling have no say in. -/
theorem map_essence_modify (h : rungs'.map Rung.essence = rungs.map Rung.essence) (index : Nat)
    {change : Rung → Rung}
    (hchange : ∀ rung rung', rung.SameEssence rung' → (change rung).SameEssence (change rung')) :
    (rungs'.modify index change).map Rung.essence =
      (rungs.modify index change).map Rung.essence := by
  apply List.ext_getElem?
  intro i
  simp only [List.getElem?_map, List.getElem?_modify]
  -- Both tapes end before the index, or have rungs there that do not differ in what matters.
  obtain ⟨hi, hi'⟩ | ⟨rung, rung', hi, hi', hrung⟩ :=
    option_rel_cases (rel_getElem?_of_essence h i)
  · rw [hi, hi']
  · simp only [hi, hi', Option.map_eq_map, Option.map_some]
    split
    · exact congrArg some (hchange _ _ hrung)
    · exact congrArg some hrung

/-- Where a block ends does not depend on positions and spellings. -/
theorem map_essence_takeWhile (name : Rung) (rungs : List Rung) :
    (rungs.takeWhile fun rung => !rung.endsBlockOf name).map Rung.essence =
      (rungs.map Rung.essence).takeWhile fun part =>
        !(part.1 == .punctuation || name.cell.isLike part.1) := by
  rw [List.takeWhile_map]
  rfl

end

/-! ## Variables -/

namespace Variables

variable {vars vars' : Variables}

/-- Variables of one name are both there or both missing, and agree in what matters. -/
theorem rel_get?_of_essence (h : vars'.essence = vars.essence) (name : String) :
    Option.Rel (fun v v' => v'.essence = v.essence) (vars.get? name) (vars'.get? name) :=
  option_rel_of_map_eq (congrFun h name)

/-- Setting a variable sets what matters about it. -/
theorem essence_set (vars : Variables) (name : String) (v : Variable) :
    (vars.set name v).essence =
      fun other => if name = other then some v.essence else vars.essence other := by
  funext other
  rw [essence, get?_set]
  split <;> rfl

/-- The element, the number and the block of a variable are part of what matters about it. -/
theorem elementOf_eq (vars : Variables) (name : String) :
    vars.elementOf name = ((vars.essence name).map Prod.fst).getD .void := by
  rw [elementOf, essence]
  cases vars.get? name <;> rfl

/-- So is its number. -/
theorem value?_eq (vars : Variables) (name : String) :
    vars.value? name = (vars.essence name).bind fun v => v.2.getLeft? := by
  rw [value?, essence]
  cases vars.get? name with
  | none => rfl
  | some v => cases h : v.binding <;> simp [Variable.value?, Variable.essence, h, Binding.essence]

/-- So is its block, as far as it matters. -/
theorem map_essence_block? (vars : Variables) (name : String) :
    (vars.block? name).map (List.map Rung.essence) =
      (vars.essence name).bind fun v => v.2.getRight? := by
  rw [block?, essence]
  cases vars.get? name with
  | none => rfl
  | some v => cases h : v.binding <;> simp [Variable.block?, Variable.essence, h, Binding.essence]

/-- The element of a variable does not depend on positions and spellings. -/
theorem elementOf_of_essence (h : vars'.essence = vars.essence) (name : String) :
    vars'.elementOf name = vars.elementOf name := by
  rw [elementOf_eq, elementOf_eq, h]

/-- Neither does its number. -/
theorem value?_of_essence (h : vars'.essence = vars.essence) (name : String) :
    vars'.value? name = vars.value? name := by
  rw [value?_eq, value?_eq, h]

/-- Its blocks are related rung by rung. -/
theorem rel_block?_of_essence (h : vars'.essence = vars.essence) (name : String) :
    Option.Rel (List.Forall₂ Rung.SameEssence) (vars.block? name) (vars'.block? name) := by
  have hmap : (vars'.block? name).map (List.map Rung.essence) =
      (vars.block? name).map (List.map Rung.essence) := by
    rw [map_essence_block?, map_essence_block?, h]
  obtain ⟨hnone, hnone'⟩ | ⟨block, block', hsome, hsome', hblock⟩ :=
    option_rel_cases (option_rel_of_map_eq hmap)
  · rw [hnone, hnone']
    exact .none
  · rw [hsome, hsome']
    exact .some (forall₂_of_essence hblock)

/-- Assigning a number agrees, since the element of the variable does. -/
theorem essence_assign (h : vars'.essence = vars.essence) (name : String) (value : Float)
    (source : Option Element) :
    (vars'.assign name value source).essence = (vars.assign name value source).essence := by
  simp only [assign, essence_set, elementOf_of_essence h, h]

/-- Binding a block agrees if the blocks do. -/
theorem essence_bind (h : vars'.essence = vars.essence) (name : String) {rungs rungs' : List Rung}
    (hrungs : rungs'.map Rung.essence = rungs.map Rung.essence) (element : Element) :
    (vars'.bind name rungs' element).essence = (vars.bind name rungs element).essence := by
  simp only [bind, essence_set, elementOf_of_essence h, h, Variable.essence, Binding.essence,
    hrungs]

/-- Advancing an element agrees. -/
theorem essence_advance (h : vars'.essence = vars.essence) (name : String) (relation : Relation) :
    (vars'.advance name relation).essence = (vars.advance name relation).essence := by
  rw [advance, advance]
  obtain ⟨hnone, hnone'⟩ | ⟨v, v', hsome, hsome', hv⟩ :=
    option_rel_cases (rel_get?_of_essence h name)
  · rw [hnone, hnone']
    exact h
  -- Both are there, with the same element and the same binding as far as it matters.
  · have helement : v'.element = v.element := congrArg Prod.fst hv
    have hbinding : v'.binding.essence = v.binding.essence := congrArg Prod.snd hv
    simp only [hsome, hsome', essence_set, Variable.essence, helement, hbinding, h]

end Variables

/-! ## Machines -/

namespace Machine

/-- A machine that differs in no more than the positions and spellings of rungs, on the tape and
    in blocks, and in how they show in the journal. -/
inductive Alike (m : Machine) : Machine → Prop
  | intro {tape : List Rung} {vars : Variables} {journal : List Event}
      (htape : tape.map Rung.essence = m.tape.map Rung.essence)
      (hvars : vars.essence = m.vars.essence)
      (htexts : journal.filterMap Event.text? = m.journal.filterMap Event.text?) :
      Alike m { m with tape, vars, journal }

variable {m m' : Machine}

namespace Alike

/-- The rungs at an index differ in positions and spellings at most. -/
theorem rel_tape (h : Alike m m') (index : Nat) :
    Option.Rel Rung.SameEssence m.tape[index]? m'.tape[index]? := by
  obtain ⟨htape, -, -⟩ := h
  exact rel_getElem?_of_essence htape index

/-- Events that print the same text may be recorded, whatever else they say. -/
theorem record (h : Alike m m') (event event' : Event) (htext : event'.text? = event.text?) :
    Alike (m.record event) (m'.record event') := by
  obtain @⟨tape, vars, journal, htape, hvars, htexts⟩ := h
  refine .intro htape hvars ?_
  show (event' :: journal).filterMap Event.text? = (event :: m.journal).filterMap Event.text?
  rw [List.filterMap_cons, List.filterMap_cons, htext, htexts]

/-- The element of a place is that of its variable, if it has one, or that of its rung. -/
theorem elementAt (h : Alike m m') (index : Nat) : m'.elementAt index = m.elementAt index := by
  rw [Machine.elementAt, Machine.elementAt]
  obtain ⟨hnone, hnone'⟩ | ⟨rung, rung', hsome, hsome', hrung⟩ :=
    option_rel_cases (h.rel_tape index)
  · rw [hnone, hnone']
  · rw [hsome, hsome']
    dsimp only
    rw [hrung.variableName?_eq, hrung.element_eq]
    obtain @⟨tape, vars, journal, -, hvars, -⟩ := h
    cases rung.variableName? with
    -- A variable without an entry leaves the element of the rung, and that is the same too.
    | none => rfl
    | some name =>
      simp only [Option.bind_some]
      obtain ⟨hv, hv'⟩ | ⟨v, v', hv, hv', hessence⟩ :=
        option_rel_cases (Variables.rel_get?_of_essence hvars name)
      · rw [hv, hv']
      · rw [hv, hv']
        exact congrArg Prod.fst hessence

/-- A place reads as the same number. -/
theorem readAt (h : Alike m m') (index : Nat) :
    (m'.readAt index).1 = (m.readAt index).1 ∧ Alike (m.readAt index).2 (m'.readAt index).2 := by
  rw [Machine.readAt, Machine.readAt]
  obtain ⟨hnone, hnone'⟩ | ⟨rung, rung', hsome, hsome', hrung⟩ :=
    option_rel_cases (h.rel_tape index)
  · rw [hnone, hnone']
    exact ⟨rfl, h⟩
  · rw [hsome, hsome']
    dsimp only
    rw [hrung.cell_eq]
    cases rung.cell with
    | literal _ | invalid _ | punctuation => exact ⟨rfl, h⟩
    | «variable» name =>
      refine ⟨?_, h⟩
      obtain @⟨tape, vars, journal, -, hvars, -⟩ := h
      exact Variables.value?_of_essence hvars name
    | command command =>
      obtain @⟨tape, vars, journal, htape, hvars, htexts⟩ := h
      cases hrange : command.range? with
      | none =>
        simp only [read, hrange]
        exact ⟨trivial, .intro htape hvars htexts⟩
      | some range =>
        -- The same number is drawn, as the generators are the same.
        simp only [read, hrange]
        exact ⟨trivial, .intro htape hvars htexts⟩

/-- A change that looks at what matters only leaves the machines alike. -/
theorem modify (h : Alike m m') (index : Nat) {change : Rung → Rung}
    (hchange : ∀ rung rung', rung.SameEssence rung' → (change rung).SameEssence (change rung')) :
    Alike (m.modify index change) (m'.modify index change) := by
  obtain @⟨tape, vars, journal, htape, hvars, htexts⟩ := h
  exact .intro (map_essence_modify htape index hchange) hvars htexts

/-- Writing a number to a place leaves the machines alike. -/
theorem assignAt (h : Alike m m') (index : Nat) (value : Float) (source : Option Element) :
    Alike (m.assignAt index value source) (m'.assignAt index value source) := by
  rw [Machine.assignAt, Machine.assignAt]
  obtain ⟨hnone, hnone'⟩ | ⟨rung, rung', hsome, hsome', hrung⟩ :=
    option_rel_cases (h.rel_tape index)
  · rw [hnone, hnone']
    exact h
  · rw [hsome, hsome']
    dsimp only
    rw [hrung.cell_eq]
    cases rung.cell with
    | command _ | invalid _ | punctuation => exact h
    | «variable» name =>
      obtain @⟨tape, vars, journal, htape, hvars, htexts⟩ := h
      exact .intro htape (Variables.essence_assign hvars name value source) htexts
    | literal _ =>
      refine h.modify index fun rung rung' hrung => ?_
      rw [setLiteral, setLiteral, hrung.cell_eq]
      split
      · exact congrArg (Prod.mk _) hrung.element_eq
      · exact hrung

/-- Advancing the element of a place leaves the machines alike. -/
theorem advanceAt (h : Alike m m') (index : Nat) (relation : Relation) :
    Alike (m.advanceAt index relation) (m'.advanceAt index relation) := by
  rw [Machine.advanceAt, Machine.advanceAt]
  obtain ⟨hnone, hnone'⟩ | ⟨rung, rung', hsome, hsome', hrung⟩ :=
    option_rel_cases (h.rel_tape index)
  · rw [hnone, hnone']
    exact h
  · rw [hsome, hsome']
    dsimp only
    rw [hrung.cell_eq]
    cases rung.cell with
    | command _ | invalid _ | punctuation => exact h
    | «variable» name =>
      obtain @⟨tape, vars, journal, htape, hvars, htexts⟩ := h
      exact .intro htape (Variables.essence_advance hvars name relation) htexts
    | literal _ =>
      refine h.modify index fun rung rung' hrung => ?_
      exact Prod.ext hrung.cell_eq (congrArg (Element.advance · relation) hrung.element_eq)

/-- Whatever a command sees and does is the same for machines that are alike. -/
theorem agreement : Agreement Alike where
  bureaucrat h := by obtain ⟨-, -, -⟩ := h; rfl
  delegate h := by obtain ⟨-, -, -⟩ := h; rfl
  moved h := by obtain ⟨-, -, -⟩ := h; rfl
  length h := by
    obtain ⟨htape, -, -⟩ := h
    exact length_eq_of_essence htape
  elementAt h := h.elementAt
  name h index := by
    obtain ⟨hnone, hnone'⟩ | ⟨rung, rung', hsome, hsome', hrung⟩ :=
      option_rel_cases (h.rel_tape index)
    · rw [hnone, hnone']
    · rw [hsome, hsome']
      exact hrung.variableName?_eq
  readAt h := h.readAt
  record h _ _ := h.record _ _ rfl
  unrelated h _ _ _ _ _ _ := h.record _ _ rfl
  place h _ _ _ := by
    obtain ⟨htape, hvars, htexts⟩ := h
    exact .intro htape hvars htexts
  assignAt h index value source _ := h.assignAt index value source
  advanceAt h index relation _ := h.advanceAt index relation
  ascend h index _ _ _ := h.modify index fun _ _ _ => rfl

/-! ### Listening and capturing -/

/-- Machines that are alike have the same input. -/
theorem input_eq (h : Alike m m') : m'.input = m.input := by
  obtain ⟨-, -, -⟩ := h
  rfl

/-- They have heard the same number of values. -/
theorem inputEvents_eq (h : Alike m m') : m'.inputEvents = m.inputEvents := by
  obtain ⟨-, -, -⟩ := h
  rfl

/-- Giving them another input leaves them alike. -/
theorem setInput (h : Alike m m') (input : Input) :
    Alike { m with input } { m' with input } := by
  obtain ⟨htape, hvars, htexts⟩ := h
  exact .intro htape hvars htexts

/-- Counting the values that have been heard leaves them alike. -/
theorem setInputEvents (h : Alike m m') (inputEvents : Nat) :
    Alike { m with inputEvents } { m' with inputEvents } := by
  obtain ⟨htape, hvars, htexts⟩ := h
  exact .intro htape hvars htexts

/-- Inserting rungs that do not differ in what matters leaves them alike. -/
theorem insert (h : Alike m m') {rung rung' : Rung} (hrung : rung.SameEssence rung')
    (index : Nat) : Alike (m.insert rung index) (m'.insert rung' index) := by
  obtain @⟨tape, vars, journal, htape, hvars, htexts⟩ := h
  refine .intro ?_ hvars htexts
  show (tape.insertIdx index rung').map _ = (m.tape.insertIdx index rung).map _
  rw [List.map_insertIdx, List.map_insertIdx, htape, hrung]

/-- Taking out the rungs of one index leaves them alike. -/
theorem erase (h : Alike m m') (index : Nat) : Alike (m.erase index) (m'.erase index) := by
  obtain @⟨tape, vars, journal, htape, hvars, htexts⟩ := h
  refine .intro ?_ hvars htexts
  show (tape.eraseIdx index).map _ = (m.tape.eraseIdx index).map _
  rw [← List.eraseIdx_map, ← List.eraseIdx_map, htape]

/-- Attending to the input leaves them alike. -/
theorem heeded (h : Alike m m') : Alike m.heeded m'.heeded := by
  rw [Machine.heeded, Machine.heeded, h.input_eq]
  split
  · exact (h.record (.noticed .garbledInput) _ rfl).setInput _
  · exact h.setInput _

/-- Both hear the same value, or both move the rung behind the bureaucrat, or there is none. -/
theorem listen (h : Alike m m') : Alike m.listen m'.listen := by
  have hinput := h.input_eq
  have hbureaucrat := agreement.bureaucrat h
  have hlength := agreement.length h
  obtain ⟨event, hread, hlisten⟩ | ⟨hread, next, hnext, hlisten⟩ | ⟨hread, hlast, hlisten⟩ :=
    m.listen_cases
  -- The value becomes the same rung, since as many have been heard before.
  · have hrung : m'.heardRung event = m.heardRung event := by
      rw [heardRung, heardRung, h.inputEvents_eq]
    rw [hlisten, listen_of_event (hinput ▸ hread), hrung, h.inputEvents_eq]
    exact ((h.heeded.record (.heard event) _ rfl).insert rfl 0).setInputEvents _
  · -- There is a rung behind the one bureaucrat if there is one behind the other.
    obtain ⟨hnone, -⟩ | ⟨rung, rung', hsome, hsome', hrung⟩ :=
      option_rel_cases (h.rel_tape (m.bureaucrat + 1))
    · rw [hnone] at hnext
      cases hnext
    · obtain rfl := Option.some.inj (hsome.symm.trans hnext)
      rw [hlisten, listen_of_next (hinput ▸ hread) (hbureaucrat ▸ hsome'), hbureaucrat]
      exact (h.heeded.erase _).insert hrung 0
  · rw [hlisten, listen_of_end (hinput ▸ hread) (by omega)]
    exact h.heeded

/-- Both capture blocks that do not differ in what matters, or both give up. -/
theorem capture (h : Alike m m') : Agrees Alike m.capture m'.capture := by
  rw [Machine.capture, Machine.capture, agreement.bureaucrat h]
  dsimp only
  obtain ⟨hnone, hnone'⟩ | ⟨name, name', hsome, hsome', hname⟩ :=
    option_rel_cases (h.rel_tape (m.bureaucrat + 1))
  · rw [hnone, hnone']
    exact ⟨rfl, h.record _ _ rfl⟩
  · rw [hsome, hsome']
    have hfail := agreement.fail h .endlessBlock
    have hplace := agreement.setBureaucrat h
    obtain @⟨tape, vars, journal, htape, hvars, htexts⟩ := h
    have hrest : (tape.drop (m.bureaucrat + 1 + 1)).map Rung.essence =
        (m.tape.drop (m.bureaucrat + 1 + 1)).map Rung.essence := by
      rw [List.map_drop, List.map_drop, htape]
    -- The block ends at the same place, as the rungs that can end it are the same.
    have hblock : ((tape.drop (m.bureaucrat + 1 + 1)).takeWhile
          fun rung => !rung.endsBlockOf name').map Rung.essence =
        ((m.tape.drop (m.bureaucrat + 1 + 1)).takeWhile
          fun rung => !rung.endsBlockOf name).map Rung.essence := by
      rw [map_essence_takeWhile, map_essence_takeWhile, hrest, hname.cell_eq]
    have hlength := length_eq_of_essence hblock
    dsimp only
    rw [hlength, length_eq_of_essence hrest, hname.variableName?_eq, hname.element_eq]
    split
    · cases name.variableName? with
      | none => exact ⟨rfl, (hplace _).record _ _ rfl⟩
      | some variableName =>
        exact ⟨rfl, .intro htape (Variables.essence_bind hvars _ hblock _) htexts⟩
    · exact hfail

end Alike

/-- Machines that are alike run in step on rungs that differ in no more than that. -/
theorem lockstep_alike : Lockstep Alike Rung.SameEssence where
  agreement := Alike.agreement
  tape h := h.rel_tape
  block h name := by
    obtain ⟨-, hvars, -⟩ := h
    exact Variables.rel_block?_of_essence hvars name
  cell h := h.cell_eq
  begin h _ _ := by
    obtain ⟨htape, hvars, htexts⟩ := h
    exact .intro htape hvars htexts
  act h hrung :=
    Alike.agreement.act h hrung.cell_eq (fun _ => h.listen) (fun _ _ => h.record _ _ rfl)
      (fun _ => h.capture)

end Machine

end Verse
