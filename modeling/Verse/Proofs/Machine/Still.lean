import Verse.Proofs.Engine.Observation
import Verse.Proofs.Machine.Act

/-!
# What most rungs leave alone

Three commands move the bureaucrat themselves, and two print.  Every other rung leaves the flag
that says so and the texts printed as they are, whatever else it does, and no rung prints more
than one text.

* `still_act`              a rung that neither moves the bureaucrat nor prints
* `moved_act`              only a move of the bureaucrat raises the flag
* `prints_act`             a rung prints at most one text
-/

namespace Verse

/-- Whether a command moves the bureaucrat itself. -/
def Command.isMarch : Command → Bool
  | .promote | .demote | .blossom => true
  | _ => false

/-- Whether a command prints. -/
def Command.isPrint : Command → Bool
  | .speak | .count => true
  | _ => false

/-- Whether a rung moves the bureaucrat itself. -/
def Rung.isMarch (rung : Rung) : Bool :=
  match rung.cell with
  | .command command => command.isMarch
  | _ => false

namespace Machine

/-- Nothing has been printed between two machines, and the bureaucrat has not been moved by a
    rung. -/
structure Still (m m' : Machine) : Prop where
  moved : m'.moved = m.moved
  printed : m'.printed = m.printed

/-- At most one text has been printed between two machines. -/
def Prints (m m' : Machine) : Prop :=
  ∃ text : Option String, m'.printed = m.printed ++ text.toList

variable {m m' m₁ m₂ m₃ : Machine}

/-- A machine is still as it is. -/
theorem Still.refl (m : Machine) : m.Still m := ⟨rfl, rfl⟩

/-- What is still twice is still. -/
theorem Still.trans (h : m₁.Still m₂) (h' : m₂.Still m₃) : m₁.Still m₃ :=
  ⟨h'.moved.trans h.moved, h'.printed.trans h.printed⟩

/-- To print nothing is to print at most one text. -/
theorem prints_of_printed_eq (h : m'.printed = m.printed) : m.Prints m' :=
  ⟨none, by rw [h, Option.toList_none, List.append_nil]⟩

/-! ## The parts of commands -/

/-- Only an event with a text adds to what has been printed. -/
theorem printed_record (m : Machine) (event : Event) :
    (m.record event).printed = m.printed ++ event.text?.toList := by
  rw [printed, printed, record, List.reverse_cons, List.filterMap_append]
  cases h : event.text? <;> simp [h]

/-- An event without a text prints nothing. -/
theorem still_record (m : Machine) {event : Event} (h : event.text? = none) :
    m.Still (m.record event) := by
  refine ⟨rfl, ?_⟩
  rw [printed_record, h, Option.toList_none, List.append_nil]

/-- A remark prints nothing. -/
theorem still_notice (m : Machine) (notice : Notice) : m.Still (m.notice notice) :=
  m.still_record rfl

/-- Noting that a rung is executed prints nothing. -/
theorem still_begin (m : Machine) (frame : Option Frame) (rung : Rung) :
    m.Still (m.begin frame rung) :=
  (m.still_record rfl).trans ⟨rfl, rfl⟩

/-- Reading a number prints nothing. -/
theorem still_of_readAt {index : Nat} {value : Option Float} (h : m.readAt index = (value, m')) :
    m.Still m' := by
  obtain ⟨generator, hdraw⟩ := m.exists_generator_readAt index
  rw [h] at hdraw
  have hm' : m' = { m with generator } := hdraw
  rw [hm']
  exact ⟨rfl, rfl⟩

/-- Writing a number prints nothing, wherever it goes. -/
theorem still_assignAt (m : Machine) (index : Nat) (value : Float) (source : Option Element) :
    m.Still (m.assignAt index value source) := by
  unfold assignAt
  split
  · exact .refl m
  · split <;> exact ⟨rfl, rfl⟩

/-- Advancing an element prints nothing. -/
theorem still_advanceAt (m : Machine) (index : Nat) (relation : Relation) :
    m.Still (m.advanceAt index relation) := by
  unfold advanceAt
  split
  · exact .refl m
  · split <;> exact ⟨rfl, rfl⟩

/-- Searching for a number prints nothing. -/
theorem still_findBelow (m : Machine) (index : Nat) : m.Still (m.findBelow index).2 := by
  obtain ⟨generator, h | ⟨i, value, h, -⟩⟩ := m.findBelow_cases index <;> rw [h] <;>
    exact ⟨rfl, rfl⟩

/-- Reading how far the delegate drifts prints nothing. -/
theorem still_driftOffset (m : Machine) : m.Still m.driftOffset.2 := by
  by_cases h : m.bureaucrat = 0
  · simp only [driftOffset, h, if_true]
    exact .refl m
  · simp only [driftOffset, h, if_false]
    exact still_of_readAt rfl

/-- Drifting prints nothing, in spite of its remarks. -/
theorem still_drift (m : Machine) (how : Drift) (k : Int) : m.Still (m.drift how k) := by
  -- The remark on a negative offset comes first.
  have hdrift : ∀ m₁ : Machine, m.Still m₁ → m.Still (
      let target := Numeric.saturate (m₁.delegate + k)
      if target < 0 then { m₁.notice (.driftedBelow how) with delegate := 0 }
      else if m₁.bureaucrat < target then
        { m₁.notice (.driftedAbove how) with delegate := m₁.bureaucrat }
      else { m₁ with delegate := target.toNat }) := by
    intro m₁ h
    dsimp only
    split
    · exact (h.trans (m₁.still_notice _)).trans ⟨rfl, rfl⟩
    · split
      · exact (h.trans (m₁.still_notice _)).trans ⟨rfl, rfl⟩
      · exact h.trans ⟨rfl, rfl⟩
  rw [drift]
  apply hdrift
  split
  · exact m.still_notice _
  · exact .refl m

/-- Attending to the input prints nothing. -/
theorem still_heeded (m : Machine) : m.Still m.heeded := by
  unfold heeded
  split
  · exact (m.still_notice .garbledInput).trans ⟨rfl, rfl⟩
  · exact ⟨rfl, rfl⟩

/-- Giving up moves the cursors, but not as a rung does, and prints nothing. -/
theorem still_fail (m : Machine) (fault : Fault) : m.Still (m.fail fault).2 := by
  -- A fault is no text.
  have hfault : (Event.failed fault).text? = none := rfl
  have hrecord := still_record
    { m with bureaucrat := m.tape.length, delegate := min m.delegate m.tape.length } hfault
  exact ⟨hrecord.moved, hrecord.printed⟩

/-! ## Commands that neither move the bureaucrat nor print -/

theorem still_advanceOperand (m : Machine) (relation : Relation) :
    m.Still (m.advanceOperand relation) := by
  unfold advanceOperand
  split
  case h_1 hread => exact still_of_readAt hread
  case h_2 hread => exact (still_of_readAt hread).trans (still_advanceAt _ _ _)

theorem still_negative (m : Machine) : m.Still m.negative := by
  unfold negative
  split
  case h_1 hread => exact still_of_readAt hread
  case h_2 hread => exact (still_of_readAt hread).trans (still_assignAt _ _ _ _)

theorem still_become (m : Machine) : m.Still m.become := by
  unfold become
  dsimp only
  split
  case h_1 hread => exact still_of_readAt hread
  case h_2 value m₁ hread =>
    have hm₁ := still_of_readAt hread
    split
    · exact hm₁.trans ⟨rfl, rfl⟩
    · have hgrown := hm₁.trans (m₁.still_assignAt m.delegate (grow value) none)
      split
      · exact hgrown.trans (still_advanceAt _ _ _)
      · exact hgrown

theorem still_like (m : Machine) : m.Still m.like := by
  unfold like
  split
  · exact .refl m
  · dsimp only
    split
    · exact .refl m
    · have hfind := m.still_findBelow m.delegate
      split
      case h_1 index value m₁ heq =>
        rw [heq] at hfind
        have hdelegate : m.Still { m₁ with delegate := index } := ⟨hfind.moved, hfind.printed⟩
        exact hdelegate.trans (still_assignAt _ _ _ _)
      case h_2 m₁ heq =>
        rw [heq] at hfind
        exact hfind.trans (still_assignAt _ _ _ _)

theorem still_operate (m : Machine) : m.Still m.operate := by
  unfold operate
  dsimp only
  split
  · exact m.still_notice _
  · split
    case h_1 hread => exact still_of_readAt hread
    case h_2 b m₁ hreadB =>
      split
      case h_1 hread => exact (still_of_readAt hreadB).trans (still_of_readAt hread)
      case h_2 a m₂ hreadA =>
        -- Both operands have been read, and what is left is at most one assignment.
        have hm₂ := (still_of_readAt hreadB).trans (still_of_readAt hreadA)
        split
        · exact hm₂.trans (still_assignAt _ _ _ _)
        · split
          · exact hm₂.trans (still_assignAt _ _ _ _)
          · exact hm₂.trans (still_assignAt _ _ _ _)
          · exact hm₂.trans (still_assignAt _ _ _ _)
          · exact hm₂.trans (still_assignAt _ _ _ _)
          · exact hm₂.trans (still_notice _ _)

theorem still_listen (m : Machine) : m.Still m.listen := by
  obtain ⟨event, -, h⟩ | ⟨-, next, -, h⟩ | ⟨-, -, h⟩ := m.listen_cases <;> rw [h]
  · exact (m.still_heeded.trans (still_record _ rfl)).trans ⟨rfl, rfl⟩
  · exact m.still_heeded.trans ⟨rfl, rfl⟩
  · exact m.still_heeded

/-- The commands that neither move the bureaucrat nor print leave the machine still. -/
theorem still_dispatch (m : Machine) {command : Command} (hmarch : command.isMarch = false)
    (hprint : command.isPrint = false) : m.Still (m.dispatch command).2 := by
  cases command with
  | few | many | tomorrow | heaven => exact .refl m
  | promote | demote | blossom => cases hmarch
  | speak | count => cases hprint
  | rise => exact m.still_driftOffset.trans (still_drift _ _ _)
  | fall => exact m.still_driftOffset.trans (still_drift _ _ _)
  | listen => exact m.still_listen
  | create | destroy | fear | love => exact m.still_advanceOperand _
  | become => exact m.still_become
  | like => exact m.still_like
  | negative => exact m.still_negative
  | operate => exact m.still_operate

/-! ## Commands that print -/

/-- `Speak` does not move the bureaucrat. -/
theorem moved_speak (m : Machine) : m.speak.moved = m.moved := by
  unfold speak
  split
  case h_1 hread => exact (still_of_readAt hread).moved
  case h_2 value m₁ hread =>
    have hm₁ := (still_of_readAt hread).moved
    dsimp only
    split <;> exact hm₁

/-- `Speak` prints one character, if the number is one. -/
theorem prints_speak (m : Machine) : m.Prints m.speak := by
  unfold speak
  split
  case h_1 hread => exact prints_of_printed_eq (still_of_readAt hread).printed
  case h_2 value m₁ hread =>
    have hm₁ := still_of_readAt hread
    dsimp only
    split
    case h_1 c _ => exact ⟨some (String.singleton c), by rw [printed_record, hm₁.printed]; rfl⟩
    case h_2 => exact prints_of_printed_eq (hm₁.trans (still_notice _ _)).printed

/-- `Count` does not move the bureaucrat. -/
theorem moved_count (m : Machine) : m.count.moved = m.moved := by
  unfold count
  split
  case h_1 hread => exact (still_of_readAt hread).moved
  case h_2 hread => exact (still_of_readAt hread).moved

/-- `Count` prints one number, if there is one. -/
theorem prints_count (m : Machine) : m.Prints m.count := by
  unfold count
  split
  case h_1 hread => exact prints_of_printed_eq (still_of_readAt hread).printed
  case h_2 value m₁ hread =>
    refine ⟨some (Numeric.general value), ?_⟩
    rw [printed_record, (still_of_readAt hread).printed]
    rfl

/-! ## Commands that move the bureaucrat -/

/-- Moving the bureaucrat prints nothing, whether it stays on the tape or not. -/
theorem printed_march (m : Machine) (how : March) (k : Int) :
    (m.march how k).2.printed = m.printed := by
  unfold march
  dsimp only
  split
  · exact (still_fail _ _).printed
  · split
    · exact (still_notice _ _).printed
    · rfl

/-- `Promote` and `Demote` do nothing for a zero and remark on a negative number. -/
theorem printed_march_nonzero (m : Machine) (how : March) (value : Float) (k : Int) :
    (if value == 0.0 then ((.proceed, m) : Signal × Machine)
      else (if value < 0.0 then m.notice (.marchedNegative how value) else m).march how k).2.printed =
      m.printed := by
  split
  · rfl
  · rw [printed_march]
    split
    · exact (m.still_notice _).printed
    · rfl

theorem printed_promote (m : Machine) : m.promote.2.printed = m.printed := by
  unfold promote
  split
  case h_1 hread => exact (still_of_readAt hread).printed
  case h_2 value m₁ hread =>
    exact (m₁.printed_march_nonzero _ _ _).trans (still_of_readAt hread).printed

theorem printed_demote (m : Machine) : m.demote.2.printed = m.printed := by
  unfold demote
  split
  case h_1 hread => exact (still_of_readAt hread).printed
  case h_2 value m₁ hread =>
    exact (m₁.printed_march_nonzero _ _ _).trans (still_of_readAt hread).printed

theorem printed_blossom (m : Machine) : m.blossom.2.printed = m.printed := by
  unfold blossom
  split
  case h_1 hread => exact (still_of_readAt hread).printed
  case h_2 value m₁ hread =>
    have hm₁ := still_of_readAt hread
    dsimp only
    split
    · exact hm₁.printed
    · rw [printed_march]
      exact hm₁.printed

/-! ## All rungs -/

/-- A capture prints nothing. -/
theorem still_capture (m : Machine) : m.Still m.capture.2 := by
  obtain ⟨-, h⟩ | ⟨name, last, -, h⟩ | ⟨name, -, -, h⟩ := m.capture_cases <;> rw [h]
  · exact m.still_notice _
  · unfold captured
    split
    · exact ⟨rfl, rfl⟩
    · exact (m.still_notice _).trans ⟨rfl, rfl⟩
  · exact m.still_fail _

/-- Apart from the commands, no rung moves the bureaucrat by itself or prints. -/
theorem still_act (m : Machine) (rung : Rung)
    (h : ∀ command, rung.cell = .command command →
      command.isMarch = false ∧ command.isPrint = false) : m.Still (m.act rung).2 := by
  unfold act
  split
  case h_1 | h_2 => exact .refl m
  case h_3 command hcell => exact m.still_dispatch (h command hcell).1 (h command hcell).2
  case h_4 => exact m.still_notice _
  case h_5 => exact m.still_capture

/-- Only `Promote`, `Demote` and `Blossom` raise the flag. -/
theorem moved_act (m : Machine) {rung : Rung} (h : rung.isMarch = false) :
    (m.act rung).2.moved = m.moved := by
  cases hcell : rung.cell with
  | command command =>
    rw [Rung.isMarch, hcell] at h
    rw [act, hcell]
    -- Only the commands that print are not still without moving anything.
    cases hprint : command.isPrint with
    | false => exact (m.still_dispatch h hprint).moved
    | true =>
      cases command with
      | speak => exact m.moved_speak
      | count => exact m.moved_count
      | _ => cases hprint
  | _ => exact (m.still_act rung (by simp [hcell])).moved

/-- A rung prints at most one text. -/
theorem prints_act (m : Machine) (rung : Rung) : m.Prints (m.act rung).2 := by
  cases hcell : rung.cell with
  | command command =>
    rw [act, hcell]
    cases command with
    | speak => exact m.prints_speak
    | count => exact m.prints_count
    | promote => exact prints_of_printed_eq m.printed_promote
    | demote => exact prints_of_printed_eq m.printed_demote
    | blossom => exact prints_of_printed_eq m.printed_blossom
    | _ => exact prints_of_printed_eq (m.still_dispatch rfl rfl).printed
  | _ => exact prints_of_printed_eq (m.still_act rung (by simp [hcell])).printed

end Machine

end Verse
