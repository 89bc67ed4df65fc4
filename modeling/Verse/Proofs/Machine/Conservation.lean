import Mathlib.Data.List.Perm.Basic
import Verse.Proofs.Machine.Act
import Verse.Proofs.Machine.Point

/-!
# Conservation of the tape

No rung is lost, doubled or renamed in a run.  The tape has the rungs of the program and those
that have been read from the input, in an order that only `Listen` changes, and every rung can
be followed from point to point, as what it may become is limited by what it is.

* `Act.conserved`, `Act.keeps`    what an act does to the tape as a whole, and to a rung
* `Point.next_keeps`              a rung from one point to the next
* `tape_is_conserved`             the tape throughout a run
-/

namespace Verse

/-- The value that an event has read from the input. -/
def Event.heard? : Event → Option InputEvent
  | .heard event => some event
  | _ => none

/-- What stays with a rung whatever becomes of it. -/
def Rung.label (rung : Rung) : Position × String :=
  (rung.position, rung.name)

/-- What is left of an input after so many attempts to read a value. -/
def Input.afterReads (input : Input) (count : Nat) : Input :=
  (fun input : Input => input.read.2)^[count] input

/-- The values that so many attempts to read an input have found. -/
def Input.firstReads (input : Input) (count : Nat) : List InputEvent :=
  (List.range count).filterMap fun i => (input.afterReads i).read.1

/-- One more attempt leaves what the last of them leaves. -/
theorem Input.afterReads_succ (input : Input) (count : Nat) :
    input.afterReads (count + 1) = (input.afterReads count).read.2 :=
  Function.iterate_succ_apply' _ _ _

/-- One more attempt finds what the input has at that time, if anything. -/
theorem Input.firstReads_succ (input : Input) (count : Nat) :
    input.firstReads (count + 1) =
      input.firstReads count ++ (input.afterReads count).read.1.toList := by
  rw [firstReads, List.range_succ, List.filterMap_append]
  cases h : (input.afterReads count).read.1 <;> simp [firstReads, h]

namespace Machine

/-- The values that have been read from the input, in order. -/
def heardEvents (m : Machine) : List InputEvent :=
  m.journal.reverse.filterMap Event.heard?

/-- Only a value that has been heard adds to those that have been read. -/
theorem heardEvents_record (m : Machine) (event : Event) :
    (m.record event).heardEvents = m.heardEvents ++ event.heard?.toList := by
  rw [heardEvents, record, List.reverse_cons, List.filterMap_append]
  cases h : event.heard? <;> simp [heardEvents, h]

/-- The labels of the rungs that have been read from the input. -/
def heardLabels (m : Machine) : List (Position × String) :=
  m.heardEvents.mapIdx fun k event => (.input k, event.text)

/-- The tape is made up of the program and of what has been read from the input. -/
structure Conserved (program : List Rung) (input : Input) (m : Machine) : Prop where
  /-- What has been read is what there was to read. -/
  reads : ∃ count, m.input = input.afterReads count ∧ m.heardEvents = input.firstReads count
  events : m.heardEvents.length = m.inputEvents
  labels : (m.tape.map Rung.label).Perm (m.heardLabels ++ program.map Rung.label)

variable {program : List Rung} {input : Input}

/-! ## The tape as a whole -/

/-- Recording anything but a value keeps the tape conserved. -/
theorem Conserved.record {m : Machine} (h : m.Conserved program input) {event : Event}
    (hevent : event.heard? = none) : (m.record event).Conserved program input := by
  have hheard : (m.record event).heardEvents = m.heardEvents := by
    rw [heardEvents_record, hevent, Option.toList_none, List.append_nil]
  refine ⟨?_, ?_, ?_⟩
  · rw [hheard]
    exact h.reads
  · rw [hheard]
    exact h.events
  · rw [heardLabels, hheard]
    exact h.labels

/-- A remark is no value. -/
theorem heard?_of_isRemark {event : Event} (h : event.isRemark = true) : event.heard? = none := by
  cases event with
  | heard _ => cases h
  | executed _ _ _ _ | printed _ | noticed _ | failed _ => rfl

/-- Changing a rung keeps its label. -/
theorem map_label_set {tape : List Rung} {index : Nat} {old new : Rung}
    (h : tape[index]? = some old) (c : old.Change new) :
    (tape.set index new).map Rung.label = tape.map Rung.label := by
  have hlabel : new.label = old.label := by
    rw [Rung.label, Rung.label, c.mayBecome.position_eq, c.mayBecome.name_eq]
  obtain ⟨hlt, hget⟩ := List.getElem?_eq_some_iff.mp h
  have hlt' : index < (tape.map Rung.label).length := by rwa [List.length_map]
  have hget' : (tape.map Rung.label)[index] = old.label := by rw [List.getElem_map, hget]
  rw [List.map_set, hlabel, ← hget']
  exact List.set_getElem_self hlt'

/-- No edit adds or removes a rung. -/
theorem Edit.conserved {m m' : Machine} (h : Edit m m') (hm : m.Conserved program input) :
    m'.Conserved program input := by
  cases h with
  | record h => exact hm.record (heard?_of_isRemark h)
  | change h c => exact ⟨hm.reads, hm.events, by rw [map_label_set h c]; exact hm.labels⟩
  | draw _ | march _ | drift _ | assign _ _ _ _ | advance _ _ =>
    exact ⟨hm.reads, hm.events, hm.labels⟩

/-- Neither do edits one after the other. -/
theorem Edits.conserved {m m' : Machine} (h : Edits m m') (hm : m.Conserved program input) :
    m'.Conserved program input := by
  induction h with
  | refl => exact hm
  | tail _ hedit ih => exact hedit.conserved ih

/-- A remark on garbled input is no value. -/
theorem heardEvents_heeded (m : Machine) : m.heeded.heardEvents = m.heardEvents := by
  have hnotice := m.heardEvents_record (.noticed .garbledInput)
  rw [show Event.heard? (.noticed .garbledInput) = none from rfl, Option.toList_none,
    List.append_nil] at hnotice
  unfold heeded
  split
  · exact hnotice
  · rfl

/-- An attempt to read that finds nothing. -/
theorem Conserved.heeded {m : Machine} (h : m.Conserved program input)
    (hread : m.input.read.1 = none) : m.heeded.Conserved program input := by
  obtain ⟨count, hinput, hheard⟩ := h.reads
  refine ⟨⟨count + 1, ?_, ?_⟩, ?_, ?_⟩
  · rw [Input.afterReads_succ, ← hinput]
    rfl
  · rw [heardEvents_heeded, Input.firstReads_succ, ← hinput, hread, Option.toList_none,
      List.append_nil, hheard]
  · rw [heardEvents_heeded, h.events, Machine.heeded]
    split <;> rfl
  · rw [tape_heeded, heardLabels, heardEvents_heeded]
    -- The counts and the values that have been read change together, and the tape does not.
    exact h.labels

/-- A value that is read goes to the front of the tape. -/
theorem Conserved.heard {m : Machine} (h : m.Conserved program input) {event : InputEvent}
    (hread : m.input.read.1 = some event) :
    Conserved program input { (m.heeded.record (.heard event)).insert (m.heardRung event) 0 with
      inputEvents := m.inputEvents + 1 } := by
  obtain ⟨count, hinput, hheard⟩ := h.reads
  have hevents : (m.heeded.record (.heard event)).heardEvents = m.heardEvents ++ [event] := by
    rw [heardEvents_record, heardEvents_heeded]
    rfl
  refine ⟨⟨count + 1, ?_, ?_⟩, ?_, ?_⟩
  · rw [Input.afterReads_succ, ← hinput]
    rfl
  · rw [Input.firstReads_succ, ← hinput, hread, ← hheard]
    exact hevents
  · show (m.heeded.record (.heard event)).heardEvents.length = _
    rw [hevents, List.length_append, h.events]
    rfl
  · have hlabels : (m.heeded.record (.heard event)).heardLabels =
        m.heardLabels ++ [(m.heardRung event).label] := by
      rw [heardLabels, hevents, List.mapIdx_concat, h.events]
      rfl
    -- The new label comes first on the tape and last among those of the input.
    show ((m.heeded.tape.insertIdx 0 (m.heardRung event)).map Rung.label).Perm
      ((m.heeded.record (.heard event)).heardLabels ++ program.map Rung.label)
    rw [hlabels, tape_heeded, List.insertIdx_zero, List.map_cons, List.append_assoc,
      List.singleton_append]
    exact (h.labels.cons _).trans List.perm_middle.symm

/-- The rung behind the bureaucrat goes to the front of the tape. -/
theorem Conserved.fetched {m : Machine} (h : m.Conserved program input) {next : Rung}
    (hnext : m.tape[m.bureaucrat + 1]? = some next) :
    ((m.erase (m.bureaucrat + 1)).insert next 0).Conserved program input := by
  refine ⟨h.reads, h.events, ?_⟩
  show (((m.tape.eraseIdx (m.bureaucrat + 1)).insertIdx 0 next).map Rung.label).Perm _
  obtain ⟨hlt, rfl⟩ := List.getElem?_eq_some_iff.mp hnext
  rw [List.insertIdx_zero]
  exact ((List.getElem_cons_eraseIdx_perm hlt).map Rung.label).trans h.labels

/-- What a rung does by itself conserves the tape. -/
theorem Act.conserved {m : Machine} {rung : Rung} {result : Signal × Machine}
    (h : Act m rung result) (hm : m.Conserved program input) :
    result.2.Conserved program input := by
  -- Giving up records a fault and moves the cursors, neither of which the tape shows.
  have hfail : ∀ {m : Machine} (fault : Fault), m.Conserved program input →
      (m.fail fault).2.Conserved program input := by
    intro m fault hm
    have hrecord : (m.record (.failed fault)).Conserved program input := hm.record rfl
    exact ⟨hrecord.reads, hrecord.events, hrecord.labels⟩
  cases h with
  | effect _ h =>
    cases h with
    | proceed h => exact h.conserved hm
    | @pushed m' h how =>
      have hedits := h.conserved hm
      have hmoved : Conserved program input { m' with moved := true } :=
        ⟨hedits.reads, hedits.events, hedits.labels⟩
      exact hfail _ hmoved
  | heaven _ => exact hm
  | heard _ hread => exact hm.heard hread
  | fetched _ hread hnext =>
    rw [← bureaucrat_heeded, ← tape_heeded] at hnext
    rw [← bureaucrat_heeded]
    exact (hm.heeded hread).fetched hnext
  | unheard _ hread _ => exact hm.heeded hread
  | captured _ _ =>
    unfold Machine.captured
    split
    · exact ⟨hm.reads, hm.events, hm.labels⟩
    · exact ⟨(hm.record rfl).reads, (hm.record rfl).events, (hm.record rfl).labels⟩
  | endless _ _ _ => exact hfail _ hm

end Machine

namespace Point

open Machine

variable {program : List Rung} {input : Input}

/-- The tape stays conserved from one point to the next. -/
theorem conserved_next {p : Point} (hp : p.machine.Conserved program input) :
    p.next.machine.Conserved program input := by
  obtain ⟨-, _, hnext⟩ | ⟨calls, frame, rung, moved, -, hnext⟩ := p.next_cases
  · rw [hnext]
    exact ⟨hp.reads, hp.events, hp.labels⟩
  · obtain ⟨m, hm⟩ : ∃ m : Machine, m = { p.machine with moved } := ⟨_, rfl⟩
    have hmoved : m.Conserved program input := by
      rw [hm]
      exact ⟨hp.reads, hp.events, hp.labels⟩
    have hrecord : (m.record (.executed m.steps frame rung m.toSnapshot)).Conserved program input :=
      hmoved.record rfl
    have hbegin : (m.begin frame rung).Conserved program input :=
      ⟨hrecord.reads, hrecord.events, hrecord.labels⟩
    rw [hnext, ← hm, enter, machine_settle]
    exact (act_cases _ rung).conserved hbegin

end Point

/-! ## A single rung -/

namespace Machine

/-- The rungs of the one tape are on the other one, where `place` puts them, as what they may
    have become. -/
def Keeps (place : Nat → Nat) (m m' : Machine) : Prop :=
  ∀ i rung, m.tape[i]? = some rung →
    ∃ rung', m'.tape[place i]? = some rung' ∧ rung.MayBecome rung'

/-- A tape that is left alone keeps its rungs where they are. -/
theorem keeps_of_tape_eq {m m' : Machine} (h : m'.tape = m.tape) : m.Keeps id m' :=
  fun _ rung hrung => ⟨rung, by rw [h]; exact hrung, .same⟩

/-- Rungs that are kept twice are kept. -/
theorem Keeps.trans {f g : Nat → Nat} {m₁ m₂ m₃ : Machine} (h : m₁.Keeps f m₂)
    (h' : m₂.Keeps g m₃) : m₁.Keeps (g ∘ f) m₃ := by
  intro i rung hrung
  obtain ⟨rung', hrung', hbecome⟩ := h i rung hrung
  obtain ⟨rung'', hrung'', hbecome'⟩ := h' (f i) rung' hrung'
  exact ⟨rung'', hrung'', hbecome.trans hbecome'⟩

/-- No edit moves a rung. -/
theorem Edit.keeps {m m' : Machine} (h : Edit m m') : m.Keeps id m' := by
  cases h with
  | @change index old new hold c =>
    intro i rung hrung
    -- The rung itself may have been changed, and the others have not.
    by_cases hi : index = i
    · subst hi
      obtain rfl := Option.some.inj (hold.symm.trans hrung)
      exact ⟨new, List.getElem?_set_self (List.getElem?_eq_some_iff.mp hold).1, c.mayBecome⟩
    · exact ⟨rung, (List.getElem?_set_ne hi).trans hrung, .same⟩
  | record _ | draw _ | march _ | drift _ | assign _ _ _ _ | advance _ _ =>
    exact keeps_of_tape_eq rfl

/-- Neither do edits one after the other. -/
theorem Edits.keeps {m m' : Machine} (h : Edits m m') : m.Keeps id m' := by
  induction h with
  | refl => exact keeps_of_tape_eq rfl
  | tail _ hedit ih => exact ih.trans hedit.keeps

/-- Where `Listen` puts the rung at an index.  A value that is read goes to the front, and so
    does the rung behind the bureaucrat if there is nothing to read. -/
def shift (m : Machine) (i : Nat) : Nat :=
  if m.input.read.1.isSome then i + 1
  else if m.bureaucrat + 1 < m.tape.length ∧ i ≤ m.bureaucrat + 1 then
    if i = m.bureaucrat + 1 then 0 else i + 1
  else i

/-- `Listen` puts no two rungs on one place. -/
theorem shift_injective (m : Machine) : Function.Injective m.shift := by
  intro i j h
  rw [shift, shift] at h
  split at h
  · exact Nat.succ.inj h
  · split at h <;> split at h <;> grind

/-- Moving the rung behind the bureaucrat to the front. -/
theorem getElem?_shift_of_fetched {m : Machine} {next : Rung} (hread : m.input.read.1 = none)
    (hnext : m.tape[m.bureaucrat + 1]? = some next) (i : Nat) :
    (next :: m.tape.eraseIdx (m.bureaucrat + 1))[m.shift i]? = m.tape[i]? := by
  have hlt := (List.getElem?_eq_some_iff.mp hnext).1
  rw [shift, hread, Option.isSome_none, if_neg Bool.false_ne_true]
  -- The rungs up to the bureaucrat move up by one, and those further behind stay.
  by_cases hi : i ≤ m.bureaucrat + 1
  · rw [if_pos ⟨hlt, hi⟩]
    split
    case isTrue heq => rw [heq, hnext, List.getElem?_cons_zero]
    case isFalse hne =>
      rw [List.getElem?_cons_succ, List.getElem?_eraseIdx_of_lt (by omega)]
  · obtain ⟨j, rfl⟩ : ∃ j, i = j + 1 := ⟨i - 1, by omega⟩
    rw [if_neg (fun h => hi h.2), List.getElem?_cons_succ,
      List.getElem?_eraseIdx_of_ge (by omega)]

/-- What an act does to the rungs. -/
theorem Act.keeps {m : Machine} {rung : Rung} {result : Signal × Machine}
    (h : Act m rung result) :
    m.Keeps (if rung.cell = .command .listen then m.shift else id) result.2 := by
  cases h with
  | effect hlisten h =>
    rw [if_neg hlisten]
    cases h with
    | proceed h => exact h.keeps
    | pushed h how => exact h.keeps.trans (keeps_of_tape_eq rfl)
  | heaven hcell =>
    rw [if_neg (by simp [hcell])]
    exact keeps_of_tape_eq rfl
  | heard hcell hread =>
    -- The new rung has index 0, and all others move up by one.
    rw [if_pos hcell]
    intro i rung hrung
    refine ⟨rung, ?_, .same⟩
    show (m.heeded.tape.insertIdx 0 _)[m.shift i]? = _
    rw [tape_heeded, List.insertIdx_zero, shift, hread, Option.isSome_some, if_pos rfl,
      List.getElem?_cons_succ, hrung]
  | @fetched _ next hread hnext =>
    rw [if_pos (by assumption)]
    intro i rung hrung
    refine ⟨rung, ?_, .same⟩
    show ((m.heeded.tape.eraseIdx _).insertIdx 0 next)[m.shift i]? = _
    rw [tape_heeded, List.insertIdx_zero, getElem?_shift_of_fetched hread hnext, hrung]
  | unheard hcell hread hlast =>
    -- With nothing behind the bureaucrat there is nothing to move either.
    rw [if_pos hcell]
    intro i rung hrung
    refine ⟨rung, ?_, .same⟩
    rw [tape_heeded, shift, hread, Option.isSome_none, if_neg Bool.false_ne_true,
      if_neg (by omega), hrung]
  | captured hcell _ =>
    rw [if_neg (by simp [hcell]), Machine.captured]
    split <;> exact keeps_of_tape_eq rfl
  | endless hcell _ _ =>
    rw [if_neg (by simp [hcell])]
    exact keeps_of_tape_eq rfl

end Machine

namespace Point

open Machine

/-- Where the rung at an index is at the next point. -/
def follow (p : Point) : Nat → Nat :=
  match p.upcoming? with
  | some (_, rung, m) => if rung.cell = .command .listen then m.shift else id
  | none => id

/-- Where the rung at an index is after so many points. -/
def followed (p : Point) : Nat → Nat → Nat
  | 0 => id
  | k + 1 => (next^[k] p).follow ∘ p.followed k

/-- From one point to the next no two rungs meet. -/
theorem follow_injective (p : Point) : Function.Injective p.follow := by
  unfold follow
  split
  · split
    · exact shift_injective _
    · exact Function.injective_id
  · exact Function.injective_id

/-- However far rungs are followed, no two of them meet. -/
theorem followed_injective (p : Point) (k : Nat) : Function.Injective (p.followed k) := by
  induction k with
  | zero => exact Function.injective_id
  | succ k ih => exact (follow_injective _).comp ih

/-- The rungs from one point to the next. -/
theorem next_keeps (p : Point) : p.machine.Keeps p.follow p.next.machine := by
  obtain ⟨hup, _, hnext⟩ | ⟨calls, frame, rung, moved, hup, hnext⟩ := p.next_cases
  · rw [follow, hup, hnext]
    exact keeps_of_tape_eq rfl
  · rw [follow, hup, hnext, enter, machine_settle]
    exact (act_cases ({ p.machine with moved } |>.begin frame rung) rung).keeps

/-- The rungs after so many points. -/
theorem iterate_keeps (p : Point) (k : Nat) :
    p.machine.Keeps (p.followed k) (next^[k] p).machine := by
  induction k with
  | zero => exact keeps_of_tape_eq rfl
  | succ k ih =>
    rw [Function.iterate_succ_apply']
    exact ih.trans (next_keeps _)

end Point

namespace Machine

/-- At every point of every run the tape is conserved. -/
theorem conserved_pointAt (m : Machine) (program : List Rung) (n : Nat) :
    (m.pointAt program n).machine.Conserved program m.input := by
  induction n with
  | zero => exact ⟨⟨0, rfl, rfl⟩, rfl, .refl _⟩
  | succ n ih =>
    rw [pointAt_succ]
    exact Point.conserved_next ih

/-- At every point of every run the tape has the rungs of the program, and one for each value
    that has been read, each with its position and its name.  From there on each rung can be
    followed to any later point.  Different rungs stay different, and only what a rung may become
    becomes of it.  If the run ends, its end is one of these points. -/
theorem tape_is_conserved (m : Machine) (program : List Rung) :
    (∀ n, (m.pointAt program n).machine.Conserved program m.input ∧
      (m.pointAt program n).machine.tape.length =
        program.length + (m.pointAt program n).machine.inputEvents ∧
      ∀ k, Function.Injective ((m.pointAt program n).followed k) ∧
        ∀ i rung, (m.pointAt program n).machine.tape[i]? = some rung →
          ∃ rung', (m.pointAt program (n + k)).machine.tape[(m.pointAt program n).followed k i]? =
            some rung' ∧ rung.MayBecome rung') ∧
    ∀ fuel reason m', m.run fuel program = some (reason, m') →
      ∃ n, m.pointAt program n = .ended reason m' := by
  refine ⟨fun n => ?_, fun _ _ _ hrun => exists_pointAt_of_run hrun⟩
  have hconserved := m.conserved_pointAt program n
  refine ⟨hconserved, ?_, fun k => ⟨Point.followed_injective _ k, ?_⟩⟩
  · -- The length is that of the permuted labels.
    have hlength := hconserved.labels.length_eq
    rw [List.length_map, List.length_append, List.length_map, heardLabels, List.length_mapIdx,
      hconserved.events, Nat.add_comm] at hlength
    exact hlength
  · rw [pointAt_add]
    exact Point.iterate_keeps _ k

end Machine

end Verse
