import Mathlib.Logic.Relation
import Verse.Machine.Dispatch
import Verse.Proofs.Machine.Operand
import Verse.Proofs.Numeric.Whole
import Verse.Proofs.Rung
import Verse.Proofs.Variables

/-!
# What a command does

A command other than `Heaven` and `Listen` acts by a chain of single edits.  The edits say
all that a command can do to the machine, each with the bounds that it respects, so that a
property of the machine is kept by every command once it is kept by every edit.

* `dispatch_effect`    the edits of a command, and how it ends the run
* `listen_cases`       what `Listen` does
-/

namespace Verse

/-- Whether an event is a text printed or a remark made. -/
def Event.isRemark : Event → Bool
  | .printed _ | .noticed _ => true
  | _ => false

namespace Machine

/-- An element that comes along with a number is that of a rung with a number. -/
def Brings (m : Machine) (source : Option Element) : Prop :=
  ∀ element, source = some element →
    ∃ index, (m.readAt index).1.isSome = true ∧ m.elementAt index = element

/-- A single change that a command makes to the machine. -/
inductive Edit : Machine → Machine → Prop
  | record {m : Machine} {event : Event} (h : event.isRemark = true) : Edit m (m.record event)
  | draw {m : Machine} (generator : Generator) : Edit m { m with generator }
  /-- The bureaucrat moves within the tape and pulls the delegate down. -/
  | march {m : Machine} {bureaucrat : Nat} (h : bureaucrat < m.tape.length) :
      Edit m { m with moved := true, bureaucrat, delegate := min m.delegate bureaucrat }
  /-- The delegate moves no further than the bureaucrat, or down. -/
  | drift {m : Machine} {delegate : Nat} (h : delegate ≤ m.bureaucrat ∨ delegate ≤ m.delegate) :
      Edit m { m with delegate }
  | change {m : Machine} {index : Nat} {old new : Rung} (h : m.tape[index]? = some old)
      (c : old.Change new) : Edit m { m with tape := m.tape.set index new }
  /-- A variable named on the tape takes a number. -/
  | assign {m : Machine} {index : Nat} {rung : Rung} {name : String}
      (h : m.tape[index]? = some rung) (hname : rung.cell = .variable name) (value : Float)
      {source : Option Element} (hs : m.Brings source) :
      Edit m { m with vars := m.vars.assign name value source }
  /-- The element of a variable that has a number advances. -/
  | advance {m : Machine} {name : String} (h : (m.vars.value? name).isSome = true)
      (relation : Relation) : Edit m { m with vars := m.vars.advance name relation }

/-- A chain of edits. -/
abbrev Edits : Machine → Machine → Prop := Relation.ReflTransGen Edit

/-- How a command leaves the machine: the run goes on after some edits, or the bureaucrat is
    sent past the end of the tape after them. -/
inductive Effect (m : Machine) : Signal × Machine → Prop
  | proceed {m' : Machine} (h : Edits m m') : Effect m (.proceed, m')
  | pushed {m' : Machine} (h : Edits m m') (how : March) :
      Effect m ({ m' with moved := true }.fail (.marchedPast how))

/-- Edits may come before those of an effect. -/
theorem Effect.after {m m' : Machine} {result : Signal × Machine} (h : Edits m m')
    (e : Effect m' result) : Effect m result := by
  cases e with
  | proceed h' => exact .proceed (h.trans h')
  | pushed h' how => exact .pushed (h.trans h') how

/-! ## Edits that are parts of commands -/

/-- A remark is an edit. -/
theorem edits_notice (m : Machine) (notice : Notice) : Edits m (m.notice notice) :=
  .single (.record rfl)

/-- So is drawing a number. -/
theorem edits_draw (m : Machine) (generator : Generator) : Edits m { m with generator } :=
  .single (.draw generator)

/-- Changing the rung at an index puts the changed rung there. -/
theorem modify_eq_set {m : Machine} {index : Nat} {rung : Rung} (h : m.tape[index]? = some rung)
    (change : Rung → Rung) :
    m.modify index change = { m with tape := m.tape.set index (change rung) } := by
  have : m.tape.modify index change = m.tape.set index (change rung) := by
    apply List.ext_getElem?
    intro i
    by_cases hi : index = i
    · subst hi
      rw [List.getElem?_modify_eq, h, List.getElem?_set_self (List.getElem?_eq_some_iff.mp h).1]
      rfl
    · rw [List.getElem?_modify_ne _ _ hi, List.getElem?_set_ne hi]
  rw [modify, this]

/-- Writing a number to a rung, which a rung that has none to change does not take. -/
theorem edits_assignAt (m : Machine) (index : Nat) (value : Float) {source : Option Element}
    (hs : m.Brings source) : Edits m (m.assignAt index value source) := by
  unfold assignAt
  split
  · exact .refl
  case h_2 rung hrung =>
    split
    case h_1 name hname => exact .single (.assign hrung hname value hs)
    case h_2 old hold =>
      -- The change says what a literal becomes, which is what setting it comes to.
      rw [modify_eq_set hrung]
      have hchange := Edit.change hrung (.overwrite hold value)
      simp only [setLiteral, hold]
      exact .single hchange
    · exact .refl

/-- A number may be written without an element. -/
theorem edits_assignAt_none (m : Machine) (index : Nat) (value : Float) :
    Edits m (m.assignAt index value none) :=
  m.edits_assignAt index value (by simp [Brings])

/-- Advancing the element of a rung that has a number. -/
theorem edits_advanceAt {m : Machine} {index : Nat} (relation : Relation)
    (hvalue : ∀ rung name, m.tape[index]? = some rung → rung.cell = .variable name →
      (m.vars.value? name).isSome = true) :
    Edits m (m.advanceAt index relation) := by
  unfold advanceAt
  split
  · exact .refl
  case h_2 rung hrung =>
    split
    case h_1 name hname => exact .single (.advance (hvalue rung name hrung hname) relation)
    case h_2 value hlit =>
      rw [modify_eq_set hrung]
      exact .single (.change hrung (.advance hlit relation))
    · exact .refl

/-! ## The cursors -/

/-- Moving the bureaucrat, on a tape that is not empty, moves it or pushes it off. -/
theorem march_effect {m : Machine} (h : 0 < m.tape.length) (how : March) (k : Int) :
    Effect m (m.march how k) := by
  unfold march
  dsimp only
  split
  · exact .pushed .refl how
  · have hlt : (Numeric.saturate (m.bureaucrat + k)).toNat < m.tape.length := by omega
    -- The remark comes before the move, so that both are edits of their own.
    split
    · exact .proceed ((m.edits_notice (.marchedBelow how)).tail (.march hlt))
    · exact .proceed (.single (.march hlt))

/-- `Promote` and `Demote` do nothing for a zero and remark on a negative number. -/
theorem march_nonzero_effect {m : Machine} (h : 0 < m.tape.length) (how : March) (value : Float)
    (k : Int) :
    Effect m (if value == 0.0 then (.proceed, m)
      else (if value < 0.0 then m.notice (.marchedNegative how value) else m).march how k) := by
  split
  · exact .proceed .refl
  · split
    · have hnotice : 0 < (m.notice (.marchedNegative how value)).tape.length := h
      exact (march_effect hnotice how k).after (m.edits_notice _)
    · exact march_effect h how k

theorem promote_effect (m : Machine) : Effect m m.promote := by
  obtain ⟨generator, hread | ⟨value, rung, hread, hrung⟩⟩ := m.readAt_cases m.delegate
  -- The operand has no number, and nothing happens but the draw.
  · rw [promote, hread]
    exact .proceed (m.edits_draw generator)
  · have hlen : 0 < ({ m with generator } : Machine).tape.length :=
      List.length_pos_of_mem (List.mem_of_getElem? hrung)
    rw [promote, hread]
    exact (march_nonzero_effect hlen .promoted value _).after (m.edits_draw generator)

theorem demote_effect (m : Machine) : Effect m m.demote := by
  obtain ⟨generator, hread | ⟨value, rung, hread, hrung⟩⟩ := m.readAt_cases m.delegate
  · rw [demote, hread]
    exact .proceed (m.edits_draw generator)
  · have hlen : 0 < ({ m with generator } : Machine).tape.length :=
      List.length_pos_of_mem (List.mem_of_getElem? hrung)
    rw [demote, hread]
    exact (march_nonzero_effect hlen .demoted value _).after (m.edits_draw generator)

theorem blossom_effect (m : Machine) : Effect m m.blossom := by
  obtain ⟨generator, hread | ⟨value, rung, hread, hrung⟩⟩ := m.readAt_cases m.delegate
  · rw [blossom, hread]
    -- The operand has no number, and nothing happens but the draw.
    exact .proceed (m.edits_draw generator)
  · have hlen : 0 < ({ m with generator } : Machine).tape.length :=
      List.length_pos_of_mem (List.mem_of_getElem? hrung)
    rw [blossom, hread]
    dsimp only
    split
    · exact .proceed (m.edits_draw generator)
    · exact (march_effect hlen .blossomed _).after (m.edits_draw generator)

/-- How far the delegate drifts is read from the rung below the bureaucrat, if there is one. -/
theorem edits_driftOffset (m : Machine) : Edits m m.driftOffset.2 := by
  by_cases h : m.bureaucrat = 0
  · simp only [driftOffset, h, if_true]
    exact .refl
  · simp only [driftOffset, h, if_false]
    obtain ⟨generator, hread | ⟨value, rung, hread, -⟩⟩ := m.readAt_cases (m.bureaucrat - 1) <;>
      rw [hread] <;> exact m.edits_draw generator

/-- The delegate drifts, with its remarks. -/
theorem edits_drift (m : Machine) (how : Drift) (k : Int) : Edits m (m.drift how k) := by
  rw [drift]
  -- The first remark does not touch the cursors, on which everything after it depends.
  have hdrift : ∀ m' : Machine, Edits m' (
      let target := Numeric.saturate (m'.delegate + k)
      if target < 0 then { m'.notice (.driftedBelow how) with delegate := 0 }
      else if m'.bureaucrat < target then
        { m'.notice (.driftedAbove how) with delegate := m'.bureaucrat }
      else { m' with delegate := target.toNat }) := by
    intro m'
    dsimp only
    split
    · exact (m'.edits_notice (.driftedBelow how)).tail (.drift (.inl (Nat.zero_le _)))
    · split
      · exact (m'.edits_notice (.driftedAbove how)).tail (.drift (.inl (Nat.le_refl _)))
      · exact .single (.drift (.inl (by omega)))
  dsimp only at hdrift ⊢
  split
  · exact (m.edits_notice _).trans (hdrift _)
  · exact hdrift _

theorem edits_rise (m : Machine) : Edits m m.rise :=
  m.edits_driftOffset.trans (edits_drift _ _ _)

theorem edits_fall (m : Machine) : Edits m m.fall :=
  m.edits_driftOffset.trans (edits_drift _ _ _)

/-! ## Output and values -/

theorem edits_speak (m : Machine) : Edits m m.speak := by
  obtain ⟨generator, hread | ⟨value, rung, hread, -⟩⟩ := m.readAt_cases m.delegate
  · rw [speak, hread]
    exact m.edits_draw generator
  · rw [speak, hread]
    dsimp only
    -- A character is printed, and anything else remarked on.
    split
    · exact (m.edits_draw generator).tail (.record rfl)
    · exact (m.edits_draw generator).tail (.record rfl)

theorem edits_count (m : Machine) : Edits m m.count := by
  obtain ⟨generator, hread | ⟨value, rung, hread, -⟩⟩ := m.readAt_cases m.delegate
  · rw [count, hread]
    exact m.edits_draw generator
  · rw [count, hread]
    exact (m.edits_draw generator).tail (.record rfl)

/-- A variable rung that has been read as a number names a variable with a number. -/
theorem isSome_value?_of_readAt {m m' : Machine} {index : Nat} {value : Float}
    (heq : m.readAt index = (some value, m')) {rung : Rung} {name : String}
    (hrung : m.tape[index]? = some rung) (hname : rung.cell = .variable name) :
    (m.vars.value? name).isSome = true := by
  obtain ⟨rung', hrung', hcell⟩ := readAt_eq_some (congrArg Prod.fst heq)
  obtain rfl := Option.some.inj (hrung'.symm.trans hrung)
  obtain h | ⟨other, h, hother⟩ | ⟨command, n, h, -⟩ := hcell <;> rw [hname] at h
  · cases h
  · rw [Cell.variable.inj h, hother]
    rfl
  · cases h

theorem edits_advanceOperand (m : Machine) (relation : Relation) :
    Edits m (m.advanceOperand relation) := by
  obtain ⟨generator, hread | ⟨value, rung, hread, -⟩⟩ := m.readAt_cases m.delegate
  · rw [advanceOperand, hread]
    exact m.edits_draw generator
  · rw [advanceOperand, hread]
    refine (m.edits_draw generator).trans (edits_advanceAt relation fun rung name hrung hname => ?_)
    exact isSome_value?_of_readAt hread hrung hname

theorem edits_negative (m : Machine) : Edits m m.negative := by
  obtain ⟨generator, hread | ⟨value, rung, hread, -⟩⟩ := m.readAt_cases m.delegate
  · rw [negative, hread]
    exact m.edits_draw generator
  · rw [negative, hread]
    exact (m.edits_draw generator).trans (edits_assignAt_none _ _ _)

/-- A rung read as a zero is a literal or a variable, as a drawn number is never zero. -/
theorem cell_of_readAt_zero {m : Machine} {index : Nat} {value : Float}
    (h : (m.readAt index).1 = some value) (hzero : (value == 0.0) = true) :
    ∃ rung, m.tape[index]? = some rung ∧
      ((∃ value, rung.cell = .literal value) ∨ ∃ name, rung.cell = .variable name) := by
  obtain ⟨rung, hrung, hlit | ⟨name, hname, -⟩ | ⟨command, n, -, rfl, hpos, hmax⟩⟩ :=
    readAt_eq_some h
  · exact ⟨rung, hrung, .inl ⟨value, hlit⟩⟩
  · exact ⟨rung, hrung, .inr ⟨name, hname⟩⟩
  -- A draw gives a positive number that is held exactly.
  · rw [Numeric.ofNat_beq_zero hpos (by omega)] at hzero
    cases hzero

/-- A variable that has been assigned to has a number. -/
theorem isSome_value?_assignAt {m : Machine} {index : Nat} {rung : Rung} {name : String}
    (hrung : m.tape[index]? = some rung) (hname : rung.cell = .variable name) (value : Float)
    (source : Option Element) (rung' : Rung) (other : String)
    (hrung' : (m.assignAt index value source).tape[index]? = some rung')
    (hother : rung'.cell = .variable other) :
    ((m.assignAt index value source).vars.value? other).isSome = true := by
  have hassign : m.assignAt index value source =
      { m with vars := m.vars.assign name value source } := by
    simp only [assignAt, hrung, hname]
  rw [hassign] at hrung' ⊢
  obtain rfl := Option.some.inj (hrung.symm.trans hrung')
  obtain rfl := Cell.variable.inj (hname.symm.trans hother)
  have hvalue : (m.vars.assign name value source).value? name = some value :=
    Variables.value?_eq_some_iff.mpr (by rw [Variables.binding?_assign, if_pos rfl])
  rw [hvalue, Option.isSome_some]

/-- Growing a variable stores the number first, so that there is an element to advance. -/
-- The rung is the same, as an assignment to a variable leaves the tape alone.
theorem edits_grow (m : Machine) {index : Nat} {rung : Rung} {name : String}
    (hrung : m.tape[index]? = some rung) (hname : rung.cell = .variable name) (value : Float) :
    Edits m ((m.assignAt index value none).advanceAt index .create) :=
  (m.edits_assignAt_none index value).trans
    (edits_advanceAt _ (isSome_value?_assignAt hrung hname value none))

theorem edits_become (m : Machine) : Edits m m.become := by
  obtain ⟨generator, hread | ⟨value, rung, hread, hrung⟩⟩ := m.readAt_cases m.delegate
  · rw [become, hread]
    exact m.edits_draw generator
  · rw [become, hread]
    refine (m.edits_draw generator).trans ?_
    dsimp only
    split
    case isTrue hzero =>
      obtain ⟨rung', hrung', hcell⟩ := cell_of_readAt_zero (congrArg Prod.fst hread) hzero
      have hmodify := modify_eq_set (m := { m with generator }) hrung' toHeaven
      rw [hmodify]
      exact .single (.change hrung' (.ascend hcell))
    case isFalse =>
      split
      case h_1 name hname =>
        obtain ⟨rung', hrung', hname⟩ := Option.bind_eq_some_iff.mp hname
        exact edits_grow { m with generator } hrung' (Rung.variableName?_eq_some hname) _
      case h_2 => exact edits_assignAt_none _ _ _

/-- The delegate only goes down to find a number. -/
theorem findBelow_cases (m : Machine) (index : Nat) :
    ∃ generator, m.findBelow index = (none, { m with generator }) ∨
      ∃ i value, m.findBelow index = (some (i, value), { m with generator }) ∧ i ≤ index := by
  induction index generalizing m with
  | zero =>
    obtain ⟨generator, hread | ⟨value, rung, hread, -⟩⟩ := m.readAt_cases 0
    · exact ⟨generator, .inl (by rw [findBelow, hread])⟩
    · exact ⟨generator, .inr ⟨0, value, by rw [findBelow, hread], Nat.le_refl 0⟩⟩
  | succ index ih =>
    obtain ⟨generator, hread | ⟨value, rung, hread, -⟩⟩ := m.readAt_cases (index + 1)
    · -- The rungs below are searched after the draw.
      rw [findBelow, hread]
      obtain ⟨generator', hnone | ⟨i, value, hsome, hle⟩⟩ := ih { m with generator }
      · exact ⟨generator', .inl hnone⟩
      · exact ⟨generator', .inr ⟨i, value, hsome, Nat.le_succ_of_le hle⟩⟩
    -- A number is found on the way, and the search ends there.
    · exact ⟨generator, .inr ⟨index + 1, value, by rw [findBelow, hread], Nat.le_refl _⟩⟩

theorem edits_like (m : Machine) : Edits m m.like := by
  unfold like
  split
  · exact .refl
  · dsimp only
    split
    · exact .refl
    -- There is a number at or below the delegate, or there is none and a zero is written.
    · obtain ⟨generator, hnone | ⟨index, value, hsome, hle⟩⟩ := m.findBelow_cases m.delegate
      · rw [hnone]
        exact (m.edits_draw generator).trans (edits_assignAt_none _ _ _)
      · rw [hsome]
        exact ((m.edits_draw generator).tail (.drift (.inr hle))).trans
          (edits_assignAt_none _ _ _)

/-- A number that is read can be read again, after no more than draws. -/
theorem isSome_readAt_generator (m : Machine) (generator : Generator) (index : Nat) :
    ({ m with generator }.readAt index).1.isSome = (m.readAt index).1.isSome := by
  rw [readAt, readAt]
  cases m.tape[index]? with
  | none => rfl
  | some rung =>
    dsimp only
    obtain command | _ | _ | _ | _ := rung.cell
    -- A command has a number if it has a range, whatever is drawn from that.
    · cases h : command.range? <;> simp only [read, h, Option.isSome_some]
    all_goals rfl

/-- Reading one rung does not take the number from another. -/
theorem isSome_readAt_of_readAt {m m₁ : Machine} {index : Nat} {value : Option Float}
    (h : m.readAt index = (value, m₁)) (other : Nat) :
    (m₁.readAt other).1.isSome = (m.readAt other).1.isSome := by
  obtain ⟨generator, hdraw⟩ := m.exists_generator_readAt index
  rw [h] at hdraw
  rw [show m₁ = { m with generator } from hdraw, isSome_readAt_generator]

theorem edits_operate (m : Machine) : Edits m m.operate := by
  unfold operate
  dsimp only
  split
  · exact m.edits_notice _
  · obtain ⟨generator, hreadB | ⟨b, rungB, hreadB, -⟩⟩ := m.readAt_cases m.delegate
    · rw [hreadB]
      exact m.edits_draw generator
    · rw [hreadB]
      dsimp only
      refine (m.edits_draw generator).trans ?_
      obtain ⟨generator', hreadA | ⟨a, rungA, hreadA, -⟩⟩ :=
        { m with generator }.readAt_cases (m.delegate + 1)
      · rw [hreadA]
        exact .single (.draw generator')
      · -- The element that the sum brings along is that of the number just read.
        have hbrings : ({ m with generator := generator' } : Machine).Brings
            (some (elementAt { m with generator := generator' } (m.delegate + 1))) := by
          intro element helement
          refine ⟨m.delegate + 1, ?_, Option.some.inj helement⟩
          rw [isSome_readAt_generator, ← isSome_readAt_generator m generator, hreadA]
          rfl
        rw [hreadA]
        refine .trans (.single (.draw generator')) ?_
        dsimp only
        -- One element joins the polarities, and different ones join the numbers by their relation.
        split
        · exact edits_assignAt_none _ _ _
        · split
          · exact edits_assignAt _ _ _ hbrings
          · exact edits_assignAt_none _ _ _
          · exact edits_assignAt_none _ _ _
          · exact edits_assignAt_none _ _ _
          · exact edits_notice _ _

/-! ## All commands -/

/-- Everything that a command other than `Heaven` and `Listen` does. -/
theorem dispatch_effect (m : Machine) {command : Command} (hheaven : command ≠ .heaven)
    (hlisten : command ≠ .listen) : Effect m (m.dispatch command) := by
  cases command with
  | few | many | tomorrow => exact .proceed .refl
  | heaven => exact absurd rfl hheaven
  | listen => exact absurd rfl hlisten
  | promote => exact m.promote_effect
  | demote => exact m.demote_effect
  | blossom => exact m.blossom_effect
  | rise => exact .proceed m.edits_rise
  | fall => exact .proceed m.edits_fall
  | speak => exact .proceed m.edits_speak
  | count => exact .proceed m.edits_count
  | create => exact .proceed (m.edits_advanceOperand .create)
  | destroy => exact .proceed (m.edits_advanceOperand .destroy)
  | fear => exact .proceed (m.edits_advanceOperand .fear)
  | love => exact .proceed (m.edits_advanceOperand .love)
  | become => exact .proceed m.edits_become
  | like => exact .proceed m.edits_like
  | negative => exact .proceed m.edits_negative
  | operate => exact .proceed m.edits_operate

/-- The rung that a value of the input becomes. -/
def heardRung (m : Machine) (event : InputEvent) : Rung :=
  { position := .input m.inputEvents, name := event.text, element := .earth,
    cell := .literal event.value }

/-- What `Listen` has found before it acts: the remark on a garbled line, if there is one to
    be made, and the input with its value taken. -/
def heeded (m : Machine) : Machine :=
  { (if m.input.isGarbled then m.notice .garbledInput else m) with input := m.input.read.2 }

/-- Attending to the input leaves the tape alone. -/
theorem tape_heeded (m : Machine) : m.heeded.tape = m.tape := by
  unfold heeded
  split <;> rfl

/-- It leaves the bureaucrat alone. -/
theorem bureaucrat_heeded (m : Machine) : m.heeded.bureaucrat = m.bureaucrat := by
  unfold heeded
  split <;> rfl

/-- It leaves the variables alone. -/
theorem vars_heeded (m : Machine) : m.heeded.vars = m.vars := by
  unfold heeded
  split <;> rfl

/-- `Listen` reads a value onto the front of the tape, or else moves the rung behind the
    bureaucrat there, or else finds no such rung. -/
theorem listen_cases (m : Machine) :
    (∃ event, m.input.read.1 = some event ∧
      m.listen = { (m.heeded.record (.heard event)).insert (m.heardRung event) 0 with
        inputEvents := m.inputEvents + 1 }) ∨
    (m.input.read.1 = none ∧ ∃ rung, m.tape[m.bureaucrat + 1]? = some rung ∧
      m.listen = (m.heeded.erase (m.bureaucrat + 1)).insert rung 0) ∨
    (m.input.read.1 = none ∧ m.tape.length ≤ m.bureaucrat + 1 ∧ m.listen = m.heeded) := by
  -- The remark on a garbled line changes nothing that the rest of the command looks at.
  obtain ⟨remarked, hm⟩ : ∃ m' : Machine,
      m' = if m.input.isGarbled then m.notice .garbledInput else m := ⟨_, rfl⟩
  have hinput : remarked.input = m.input := by rw [hm]; split <;> rfl
  have htape : remarked.tape = m.tape := by rw [hm]; split <;> rfl
  have hbureaucrat : remarked.bureaucrat = m.bureaucrat := by rw [hm]; split <;> rfl
  have hevents : remarked.inputEvents = m.inputEvents := by rw [hm]; split <;> rfl
  rw [listen, heeded, ← hm]
  dsimp only
  rw [hinput]
  cases hread : m.input.read.1 with
  | some event =>
    refine .inl ⟨event, rfl, ?_⟩
    rw [heardRung, hevents]
    rfl
  | none =>
    rw [hbureaucrat]
    cases hrung : m.tape[m.bureaucrat + 1]? with
    | some rung =>
      refine .inr (.inl ⟨rfl, rung, rfl, ?_⟩)
      simp only [erase?, htape, hrung, Option.map_some]
    | none =>
      refine .inr (.inr ⟨rfl, List.getElem?_eq_none_iff.mp hrung, ?_⟩)
      simp only [erase?, htape, hrung, Option.map_none]

/-! Which of the three it is depends on the input and the tape. -/

/-- There is a value to read. -/
theorem listen_of_event {m : Machine} {event : InputEvent}
    (hread : m.input.read.1 = some event) :
    m.listen = { (m.heeded.record (.heard event)).insert (m.heardRung event) 0 with
      inputEvents := m.inputEvents + 1 } := by
  simpa [hread] using m.listen_cases

/-- There is nothing to read, and there is a rung behind the bureaucrat. -/
theorem listen_of_next {m : Machine} {next : Rung} (hread : m.input.read.1 = none)
    (hnext : m.tape[m.bureaucrat + 1]? = some next) :
    m.listen = (m.heeded.erase (m.bureaucrat + 1)).insert next 0 := by
  have hlt := (List.getElem?_eq_some_iff.mp hnext).1
  simpa [hread, hnext, Nat.not_le.mpr hlt] using m.listen_cases

/-- There is nothing to read and no rung behind the bureaucrat. -/
theorem listen_of_end {m : Machine} (hread : m.input.read.1 = none)
    (hlast : m.tape.length ≤ m.bureaucrat + 1) : m.listen = m.heeded := by
  have hnone := List.getElem?_eq_none_iff.mpr hlast
  simpa [hread, hnone, hlast] using m.listen_cases

end Machine

end Verse
