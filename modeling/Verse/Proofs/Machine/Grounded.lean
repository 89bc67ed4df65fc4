import Verse.Proofs.Machine.Inventory
import Verse.Proofs.Machine.Lockstep

/-!
# Every number has an element

The element of a variable may be void, but only as long as the variable has no number.  Literals
and commands never lose their elements, and a number brings along no element but that of another
number.  Two numbers are therefore always related or alike, and `Operate` is never baffled.

* `Grounded`             machines whose numbers all have elements
* `Grounded.elementAt`   the element of any rung that is read as a number
* `unbaffled_pointAt`    they stay so in a run, and nothing in it baffles them
-/

namespace Verse

/-! ## Elements -/

/-- The elements of the cycle are all but void. -/
theorem Element.mem_cycle_iff {element : Element} : element ∈ Element.cycle ↔ element ≠ .void := by
  cases element <;> decide

/-- Earth is one of them. -/
theorem Element.earth_mem_cycle : Element.earth ∈ Element.cycle := by
  decide

/-- A relation leads from an element of the cycle to an element of the cycle. -/
theorem Element.advance_mem_cycle {element : Element} (h : element ∈ Element.cycle)
    (relation : Relation) : element.advance relation ∈ Element.cycle := by
  cases relation <;> cases element <;> first | decide | exact absurd h (by decide)

/-- Of two distinct elements of the cycle, a relation leads from the one to the other. -/
theorem Relation.between_ne_none {earlier later : Element} (hearlier : earlier ∈ Element.cycle)
    (hlater : later ∈ Element.cycle) (hne : earlier ≠ later) :
    Relation.between earlier later ≠ none := by
  revert hearlier hlater hne
  cases earlier <;> cases later <;> decide

/-- A rung that can be executed.  Unless it is a variable, it has an element. -/
structure Rung.IsGrounded (rung : Rung) : Prop where
  valid : ∀ code, rung.cell ≠ .invalid code
  element : rung.variableName? = none → rung.element ∈ Element.cycle

/-- A rung that can be executed and has an element keeps being one. -/
theorem Rung.isLasting_isGrounded : Rung.IsLasting Rung.IsGrounded where
  change hchange hold := by
    cases hchange with
    | overwrite hcell value =>
      exact ⟨by simp, fun _ => hold.element (by rw [Rung.variableName?, hcell])⟩
    | advance hcell relation =>
      refine ⟨hold.valid, fun _ => Element.advance_mem_cycle (hold.element ?_) relation⟩
      rw [Rung.variableName?, hcell]
    | ascend _ => exact ⟨by simp [Machine.toHeaven], fun _ => Element.earth_mem_cycle⟩
  heard m event := ⟨by simp [Machine.heardRung], fun _ => Element.earth_mem_cycle⟩

namespace Machine

/-- All rungs of a machine are grounded, and all its variables that have numbers have elements. -/
structure Grounded (m : Machine) : Prop where
  rungs : m.AllRungs Rung.IsGrounded
  vars : ∀ name value, m.vars.value? name = some value →
    m.vars.elementOf name ∈ Element.cycle

variable {m m' : Machine}

namespace Grounded

/-- Nothing but the tape and the variables matters. -/
theorem of_eq (h : m.Grounded) (htape : m'.tape = m.tape) (hvars : m'.vars = m.vars) :
    m'.Grounded := by
  obtain ⟨⟨htape', hblocks⟩, hvars'⟩ := h
  exact ⟨⟨htape ▸ htape', hvars ▸ hblocks⟩, hvars ▸ hvars'⟩

/-- A rung that is read as a number has an element. -/
theorem elementAt (h : m.Grounded) {index : Nat} (hread : (m.readAt index).1.isSome = true) :
    m.elementAt index ∈ Element.cycle := by
  obtain ⟨value, hvalue⟩ := Option.isSome_iff_exists.mp hread
  obtain ⟨rung, hrung, hcell⟩ := readAt_eq_some hvalue
  have hgrounded := h.rungs.getElem? hrung
  rw [Machine.elementAt, hrung]
  dsimp only
  cases hname : rung.variableName? with
  | none => exact hgrounded.element hname
  | some name =>
    have hvariable := Rung.variableName?_eq_some hname
    obtain hcell | ⟨other, hcell, hother⟩ | ⟨command, n, hcell, -⟩ := hcell <;>
      rw [hvariable] at hcell <;> cases hcell
    -- The variable has a number, so it is there.
    have hmem := h.vars name value hother
    rw [Variables.elementOf] at hmem
    simp only [Option.bind_some]
    cases hv : m.vars.get? name with
    | none =>
      rw [hv] at hmem
      exact absurd hmem (by decide)
    | some v =>
      rw [hv] at hmem
      exact hmem

/-- An edit leaves a machine grounded. -/
theorem edit (h : m.Grounded) (hedit : Edit m m') : m'.Grounded := by
  refine ⟨h.rungs.edit Rung.isLasting_isGrounded hedit, ?_⟩
  cases hedit with
  | record _ | draw _ | march _ | drift _ | change _ _ => exact h.vars
  | @assign _ _ target _ _ value source hs =>
    intro name number hnumber
    rw [Variables.elementOf_assign]
    split
    case isTrue hname =>
      -- A variable without an element takes earth, whatever the number brings along.
      split
      case isTrue => exact Element.earth_mem_cycle
      case isFalse hvoid =>
        -- The element that the number brings along is that of a number.
        cases source with
        | none => exact Element.mem_cycle_iff.mpr hvoid
        | some element =>
          obtain ⟨index, hread, rfl⟩ := hs element rfl
          exact h.elementAt hread
    case isFalse hname =>
      rw [Variables.value?_eq_some_iff, Variables.binding?_assign, if_neg hname] at hnumber
      exact h.vars name number (Variables.value?_eq_some_iff.mpr hnumber)
  -- Advancing leaves every number, so only the element that is advanced is to be looked at.
  | @advance target _ relation =>
    intro name number hnumber
    rw [Variables.value?_eq_some_iff, Variables.binding?_advance] at hnumber
    have hmem := h.vars name number (Variables.value?_eq_some_iff.mpr hnumber)
    obtain heq | heq := Variables.elementOf_advance m.vars target name relation <;> rw [heq]
    · exact hmem
    · exact Element.advance_mem_cycle hmem relation

/-- Edits one after the other do so too. -/
theorem edits (h : m.Grounded) (hedits : Edits m m') : m'.Grounded := by
  induction hedits with
  | refl => exact h
  | tail _ hedit ih => exact ih.edit hedit

/-- `Listen` leaves the variables, and what it inserts has the element earth. -/
theorem listen (h : m.Grounded) : m.listen.Grounded := by
  refine ⟨h.rungs.listen Rung.isLasting_isGrounded, ?_⟩
  have hvars : m.listen.vars = m.vars := by
    obtain ⟨event, -, hlisten⟩ | ⟨-, next, -, hlisten⟩ | ⟨-, -, hlisten⟩ := m.listen_cases <;>
      rw [hlisten] <;> exact m.vars_heeded
  rw [hvars]
  exact h.vars

/-- A variable with a block may lack an element, but it has no number. -/
theorem capture (h : m.Grounded) : m.capture.2.Grounded := by
  refine ⟨h.rungs.capture, ?_⟩
  obtain ⟨-, hcapture⟩ | ⟨name, last, -, hcapture⟩ | ⟨name, -, -, hcapture⟩ := m.capture_cases <;>
    rw [hcapture]
  · exact h.vars
  · -- A block has been captured, by a variable or by something that is none.
    unfold captured
    split
    case h_1 target _ =>
      intro other number hnumber
      rw [Variables.value?_eq_some_iff, Variables.binding?_bind] at hnumber
      split at hnumber
      -- The variable that takes the block has no number any more.
      case isTrue => cases hnumber
      case isFalse hne =>
        rw [Variables.elementOf_bind _ _ _ _ _ hne]
        exact h.vars other number (Variables.value?_eq_some_iff.mpr hnumber)
    case h_2 => exact h.vars
  · exact h.vars

end Grounded

/-! ## Runs -/

/-- A grounded machine that has had nothing to remark on a rung that cannot be executed, or on
    elements that no relation joins; in two runs that are the same. -/
structure Unbaffled (m m' : Machine) : Prop where
  same : m' = m
  grounded : m.Grounded
  journal : ∀ event ∈ m.journal, event.isBaffled = false

/-- Assigning a number leaves no remark. -/
theorem journal_assignAt (m : Machine) (index : Nat) (value : Float) (source : Option Element) :
    (m.assignAt index value source).journal = m.journal := by
  unfold assignAt
  split
  · rfl
  · split <;> rfl

/-- Advancing an element leaves no remark. -/
theorem journal_advanceAt (m : Machine) (index : Nat) (relation : Relation) :
    (m.advanceAt index relation).journal = m.journal := by
  unfold advanceAt
  split
  · rfl
  · split <;> rfl

namespace Unbaffled

/-- What is no remark on something baffling may be recorded. -/
theorem record (h : Unbaffled m m') {event : Event} (hevent : event.isBaffled = false) :
    Unbaffled (m.record event) (m'.record event) := by
  obtain ⟨rfl, hgrounded, hjournal⟩ := h
  refine ⟨rfl, hgrounded.of_eq rfl rfl, fun other hother => ?_⟩
  obtain rfl | hother := List.mem_cons.mp hother
  · exact hevent
  · exact hjournal other hother

/-- Commands can do without the two remarks, since a grounded machine gives no cause for them. -/
theorem agreement : Agreement Unbaffled where
  bureaucrat h := by obtain ⟨rfl, -, -⟩ := h; rfl
  delegate h := by obtain ⟨rfl, -, -⟩ := h; rfl
  moved h := by obtain ⟨rfl, -, -⟩ := h; rfl
  length h := by obtain ⟨rfl, -, -⟩ := h; rfl
  elementAt h _ := by obtain ⟨rfl, -, -⟩ := h; rfl
  name h _ := by obtain ⟨rfl, -, -⟩ := h; rfl
  readAt {m m'} h index := by
    obtain ⟨rfl, hgrounded, hjournal⟩ := h
    obtain ⟨generator, hdraw⟩ := m'.exists_generator_readAt index
    refine ⟨rfl, rfl, ?_, ?_⟩ <;> rw [hdraw]
    · exact hgrounded.edit (.draw generator)
    · exact hjournal
  record h _ hevent := h.record hevent
  unrelated h i j hi hj hne hnone := by
    -- Both numbers have elements, so a relation leads from the one to the other.
    have hgrounded := h.grounded
    exact absurd hnone
      (Relation.between_ne_none (hgrounded.elementAt hi) (hgrounded.elementAt hj) hne)
  place h _ _ _ := by
    obtain ⟨rfl, hgrounded, hjournal⟩ := h
    exact ⟨rfl, hgrounded.of_eq rfl rfl, hjournal⟩
  assignAt h index value source hs := by
    obtain ⟨rfl, hgrounded, hjournal⟩ := h
    refine ⟨rfl, hgrounded.edits (edits_assignAt _ index value hs), ?_⟩
    rw [journal_assignAt]
    exact hjournal
  advanceAt h index relation hvalue := by
    obtain ⟨rfl, hgrounded, hjournal⟩ := h
    refine ⟨rfl, hgrounded.edits (edits_advanceAt relation hvalue), ?_⟩
    rw [journal_advanceAt]
    exact hjournal
  ascend h index rung hrung hcell := by
    obtain ⟨rfl, hgrounded, hjournal⟩ := h
    refine ⟨rfl, hgrounded.edit ?_, hjournal⟩
    rw [modify_eq_set hrung]
    exact .change hrung (.ascend hcell)

/-- What `Listen` remarks is that a line is garbled, and nothing else. -/
theorem listen (h : Unbaffled m m') : Unbaffled m.listen m'.listen := by
  obtain ⟨rfl, hgrounded, hjournal⟩ := h
  have hheeded : ∀ event ∈ m'.heeded.journal, event.isBaffled = false := by
    unfold heeded
    split
    · exact List.forall_mem_cons.mpr ⟨rfl, hjournal⟩
    · exact hjournal
  refine ⟨rfl, hgrounded.listen, ?_⟩
  obtain ⟨event, -, hlisten⟩ | ⟨-, next, -, hlisten⟩ | ⟨-, -, hlisten⟩ := m'.listen_cases <;>
    rw [hlisten]
  · exact List.forall_mem_cons.mpr ⟨rfl, hheeded⟩
  · exact hheeded
  · exact hheeded

/-- What a capture remarks on is a block without a variable or without an end. -/
theorem capture (h : Unbaffled m m') : Agrees Unbaffled m.capture m'.capture := by
  obtain ⟨rfl, hgrounded, hjournal⟩ := h
  refine ⟨rfl, rfl, hgrounded.capture, ?_⟩
  obtain ⟨-, hcapture⟩ | ⟨name, last, -, hcapture⟩ | ⟨name, -, -, hcapture⟩ := m'.capture_cases <;>
    rw [hcapture]
  · exact List.forall_mem_cons.mpr ⟨rfl, hjournal⟩
  · unfold captured
    split
    · exact hjournal
    · exact List.forall_mem_cons.mpr ⟨rfl, hjournal⟩
  · exact List.forall_mem_cons.mpr ⟨rfl, hjournal⟩

end Unbaffled

/-- Grounded rungs keep a machine grounded, and nothing they do baffles it. -/
theorem lockstep_unbaffled : Lockstep Unbaffled (SameOf Rung.IsGrounded) where
  agreement := Unbaffled.agreement
  tape h index := by
    obtain ⟨rfl, hgrounded, -⟩ := h
    exact hgrounded.rungs.rel_tape index
  block h name := by
    obtain ⟨rfl, hgrounded, -⟩ := h
    exact hgrounded.rungs.rel_block? name
  cell h := by rw [h.1]
  begin h hrung frame := by
    obtain ⟨rfl, hgrounded, hjournal⟩ := h
    obtain ⟨rfl, -⟩ := hrung
    exact ⟨rfl, hgrounded.of_eq rfl rfl, List.forall_mem_cons.mpr ⟨rfl, hjournal⟩⟩
  act h hrung := by
    obtain ⟨rfl, hvalid⟩ := hrung
    exact Unbaffled.agreement.act h rfl (fun _ => h.listen)
      (fun code hcell => absurd hcell (hvalid.valid code)) (fun _ => h.capture)

/-- A program of grounded rungs keeps the machine grounded at every point of every run. -/
theorem unbaffled_pointAt {program : List Rung} (h : ∀ rung ∈ program, rung.IsGrounded)
    (m : Machine) (n : Nat) :
    (m.pointAt program n).machine.Grounded ∧
      ∀ event ∈ (m.pointAt program n).machine.journal, event.isBaffled = false := by
  have hstart : Unbaffled (m.start program) (m.start program) := by
    refine ⟨rfl, ⟨m.allRungs_start h, fun name value hvalue => ?_⟩, List.forall_mem_nil _⟩
    rw [show (m.start program).vars = .empty from rfl, Variables.value?_eq_some_iff,
      Variables.binding?_empty] at hvalue
    cases hvalue
  obtain ⟨-, hgrounded, hjournal⟩ := (lockstep_unbaffled.pointAt hstart n).machine
  exact ⟨hgrounded, hjournal⟩

end Machine

end Verse
