import Verse.Proofs.Machine.Act
import Verse.Proofs.Machine.Point

/-!
# The cursors stay in order

At every point of a run the delegate is not ahead of the bureaucrat, and the bureaucrat not
beyond the end of the tape.  What carries this is a stronger fact about the middle of a step:
there the bureaucrat stands on a rung, so that it may advance by one when the step is over.

* `Edit.onTape`             no edit takes the bureaucrat off the tape
* `Point.Ordered.next`      the order is kept from point to point
* `cursors_stay_in_order`   so it holds throughout a run
-/

namespace Verse

namespace Machine

/-- The delegate is not ahead of the bureaucrat, which stands on a rung. -/
structure OnTape (m : Machine) : Prop where
  delegate_le : m.delegate ≤ m.bureaucrat
  bureaucrat_lt : m.bureaucrat < m.tape.length

/-- The delegate is not ahead of the bureaucrat, which is not beyond the end of the tape. -/
structure InOrder (m : Machine) : Prop where
  delegate_le : m.delegate ≤ m.bureaucrat
  bureaucrat_le : m.bureaucrat ≤ m.tape.length

/-- Whatever a rung looks at or takes out without a check of its own is on the tape. -/
structure InRange (m : Machine) : Prop where
  /-- The rung under the bureaucrat and those before it, thus also the operand and the rungs
      below it. -/
  rungs : ∀ i ≤ m.bureaucrat, ∃ rung, m.tape[i]? = some rung
  operand : ∃ rung, m.tape[m.delegate]? = some rung
  /-- What `Listen` takes out stands behind both cursors, so neither is counted down. -/
  removal : ∀ rung m', m.erase? (m.bureaucrat + 1) = some (rung, m') →
    m.tape[m.bureaucrat + 1]? = some rung ∧ m'.bureaucrat = m.bureaucrat ∧
      m'.delegate = m.delegate ∧ m'.tape.length + 1 = m.tape.length

/-- A bureaucrat on a rung is not beyond the end. -/
theorem OnTape.inOrder {m : Machine} (h : m.OnTape) : m.InOrder :=
  ⟨h.delegate_le, Nat.le_of_lt h.bureaucrat_lt⟩

/-- The delegate is on the tape where the bureaucrat is. -/
theorem OnTape.delegate_lt {m : Machine} (h : m.OnTape) : m.delegate < m.tape.length :=
  Nat.lt_of_le_of_lt h.delegate_le h.bureaucrat_lt

/-- With the cursors on the tape everything that a rung touches is there. -/
theorem OnTape.inRange {m : Machine} (h : m.OnTape) : m.InRange where
  rungs i hi :=
    ⟨_, List.getElem?_eq_getElem (Nat.lt_of_le_of_lt hi h.bureaucrat_lt)⟩
  operand := ⟨_, List.getElem?_eq_getElem h.delegate_lt⟩
  removal rung m' herase := by
    obtain ⟨taken, htaken, heq⟩ := Option.map_eq_some_iff.mp herase
    obtain ⟨rfl, rfl⟩ := Prod.mk.inj heq
    -- What is taken out is behind both cursors, so neither comparison holds.
    have hlt := (List.getElem?_eq_some_iff.mp htaken).1
    refine ⟨htaken, if_neg (by omega), if_neg ?_, ?_⟩
    · have := h.delegate_le
      omega
    · simp only [erase, List.length_eraseIdx_of_lt hlt]
      omega

/-! ## What a rung does to the cursors -/

/-- No edit takes the bureaucrat off the tape or puts the delegate ahead of it. -/
theorem Edit.onTape {m m' : Machine} (h : Edit m m') (hm : m.OnTape) : m'.OnTape := by
  obtain ⟨hdelegate, hbureaucrat⟩ := hm
  cases h with
  | march hlt => exact ⟨Nat.min_le_right _ _, hlt⟩
  | drift hle => exact ⟨by rcases hle with h | h <;> simp only <;> omega, hbureaucrat⟩
  | change _ _ => exact ⟨hdelegate, by rwa [List.length_set]⟩
  | record _ | draw _ | assign _ _ _ _ | advance _ _ => exact ⟨hdelegate, hbureaucrat⟩

/-- Neither do edits one after the other. -/
theorem Edits.onTape {m m' : Machine} (h : Edits m m') (hm : m.OnTape) : m'.OnTape := by
  induction h with
  | refl => exact hm
  | tail _ hedit ih => exact hedit.onTape ih

/-- Putting a rung at the front moves everything up by one. -/
theorem OnTape.insert_zero {m : Machine} (h : m.OnTape) (rung : Rung) :
    (m.insert rung 0).OnTape := by
  obtain ⟨hdelegate, hbureaucrat⟩ := h
  refine ⟨?_, ?_⟩
  · simp only [insert, Nat.zero_le, if_true]
    omega
  · simp only [insert, Nat.zero_le, if_true, List.insertIdx_zero, List.length_cons]
    omega

/-- Taking out the rung behind the bureaucrat does not touch the cursors. -/
theorem OnTape.erase_succ {m : Machine} (h : m.OnTape) : (m.erase (m.bureaucrat + 1)).OnTape := by
  obtain ⟨hdelegate, hbureaucrat⟩ := h
  refine ⟨?_, ?_⟩
  · simp only [erase]
    rw [if_neg (by omega), if_neg (by omega)]
    exact hdelegate
  · simp only [erase]
    rw [if_neg (by omega), List.length_eraseIdx]
    split <;> omega

/-- Attending to the input leaves the cursors alone. -/
theorem OnTape.heeded {m : Machine} (h : m.OnTape) : m.heeded.OnTape := by
  unfold Machine.heeded
  split <;> exact ⟨h.delegate_le, h.bureaucrat_lt⟩

/-- After a capture the bureaucrat is at the end of the block, which is further on. -/
theorem OnTape.captured {m : Machine} (h : m.OnTape) {name : Rung} {last : Nat}
    (hend : m.EndsAt name last) : (m.captured name last).OnTape := by
  have := h.delegate_le
  have := hend.name_lt
  unfold Machine.captured
  split <;> exact ⟨by simp only [notice, record]; omega, hend.last_lt⟩

/-- Giving up leaves the bureaucrat at the end of the tape. -/
theorem OnTape.fail {m : Machine} (h : m.OnTape) (fault : Fault) :
    (m.fail fault).2.InOrder ∧ (m.fail fault).2.delegate < (m.fail fault).2.tape.length := by
  have := h.delegate_lt
  simp only [Machine.fail, record]
  exact ⟨⟨Nat.min_le_right _ _, Nat.le_refl _⟩, by omega⟩

end Machine

namespace Point

open Machine

/-- The order of the cursors at a point.  In the middle of a step the bureaucrat is on a
    rung.  The delegate is on one unless the program is empty. -/
def Ordered (program : List Rung) : Point → Prop
  | .within _ m => m.OnTape
  | .ready m | .ended _ m => m.InOrder ∧ (program ≠ [] → m.delegate < m.tape.length)

variable {program : List Rung}

/-- Edits leave the order, and so does giving up after them. -/
theorem ordered_settle_of_effect {m : Machine} (hm : m.OnTape) {result : Signal × Machine}
    (h : Effect m result) (calls : List Call) : (settle calls result).Ordered program := by
  cases h with
  | proceed h => exact h.onTape hm
  | @pushed m' h how =>
    have hmoved : Machine.OnTape { m' with moved := true } :=
      ⟨(h.onTape hm).delegate_le, (h.onTape hm).bureaucrat_lt⟩
    obtain ⟨horder, hlt⟩ := hmoved.fail (.marchedPast how)
    exact ⟨horder, fun _ => hlt⟩

/-- What a rung does by itself keeps the order. -/
theorem ordered_settle_of_act {m : Machine} (hm : m.OnTape) {rung : Rung}
    {result : Signal × Machine} (h : Act m rung result) (calls : List Call) :
    (settle calls result).Ordered program := by
  cases h with
  | effect _ h => exact ordered_settle_of_effect hm h calls
  | heaven _ => exact ⟨hm.inOrder, fun _ => hm.delegate_lt⟩
  | @heard _ event _ =>
    have hrecord : (m.heeded.record (.heard event)).OnTape :=
      ⟨hm.heeded.delegate_le, hm.heeded.bureaucrat_lt⟩
    have hinsert := hrecord.insert_zero (m.heardRung event)
    exact ⟨hinsert.delegate_le, hinsert.bureaucrat_lt⟩
  | fetched _ _ _ =>
    rw [← bureaucrat_heeded]
    exact hm.heeded.erase_succ.insert_zero _
  | unheard _ _ _ => exact hm.heeded
  | captured _ hend => exact hm.captured hend
  | endless _ _ _ => exact ⟨(hm.fail _).1, fun _ => (hm.fail _).2⟩

/-- A rung that is executed on the tape keeps the order. -/
theorem ordered_enter {m : Machine} (hm : m.OnTape) (calls : List Call) (frame : Option Frame)
    (rung : Rung) : (enter calls frame rung m).Ordered program := by
  have hbegin : (m.begin frame rung).OnTape := ⟨hm.delegate_le, hm.bureaucrat_lt⟩
  exact ordered_settle_of_act hbegin (act_cases _ rung) _

/-- From point to point the cursors stay in order. -/
theorem Ordered.next {p : Point} (h : p.Ordered program) : p.next.Ordered program := by
  cases p using shape_cases with
  | ready m =>
    obtain ⟨horder, hlt⟩ := h
    rw [Point.next]
    split
    · exact ⟨horder, hlt⟩
    case h_2 rung hrung =>
      have hon : Machine.OnTape { m with moved := false } :=
        ⟨horder.delegate_le, (List.getElem?_eq_some_iff.mp hrung).1⟩
      exact ordered_enter hon [] none rung
  | stepped m =>
    -- The bureaucrat is on a rung, hence moving it by one leaves it on the tape or at its end.
    have hon : m.OnTape := h
    rw [Point.next]
    split
    · exact ⟨hon.inOrder, fun _ => hon.delegate_lt⟩
    · exact ⟨⟨Nat.le_succ_of_le hon.delegate_le, hon.bureaucrat_lt⟩, fun _ => hon.delegate_lt⟩
  | returning _ _ _ _ | ended _ _ => exact h
  | inBlock _ _ rung _ _ _ => exact ordered_enter h _ _ rung

/-- The order is kept however many points there are. -/
theorem Ordered.iterate {p : Point} (h : p.Ordered program) (n : Nat) :
    (Point.next^[n] p).Ordered program := by
  induction n with
  | zero => exact h
  | succ n ih =>
    rw [Function.iterate_succ_apply']
    exact ih.next

/-- What the order says in every case. -/
theorem Ordered.inOrder {p : Point} (h : p.Ordered program) : p.machine.InOrder := by
  cases p with
  | ready _ | ended _ _ => exact h.1
  | within _ _ => exact OnTape.inOrder h

/-- The delegate is on a rung at every point of a program that has one. -/
theorem Ordered.delegate_lt {p : Point} (h : p.Ordered program) (hprogram : program ≠ []) :
    p.machine.delegate < p.machine.tape.length := by
  cases p with
  | ready _ | ended _ _ => exact h.2 hprogram
  | within _ _ => exact OnTape.delegate_lt h

/-- A rung is executed only while the bureaucrat is on a rung. -/
theorem Ordered.onTape_of_upcoming? {p : Point} (h : p.Ordered program) {frame : Option Frame}
    {rung : Rung} {m : Machine} (hup : p.upcoming? = some (frame, rung, m)) : m.OnTape := by
  cases p using shape_cases with
  | ready m₀ =>
    obtain ⟨rung', hrung, heq⟩ := Option.map_eq_some_iff.mp hup
    cases heq
    exact ⟨h.1.delegate_le, (List.getElem?_eq_some_iff.mp hrung).1⟩
  | inBlock _ _ _ _ _ _ =>
    cases hup
    exact h
  | stepped _ | returning _ _ _ _ | ended _ _ => cases hup

end Point

namespace Machine

/-- A run starts in order, and so it stays. -/
theorem pointAt_ordered (m : Machine) (program : List Rung) (n : Nat) :
    (m.pointAt program n).Ordered program := by
  have hstart : (Point.ready (m.start program)).Ordered program :=
    ⟨⟨Nat.le_refl _, Nat.zero_le _⟩, fun h => List.length_pos_iff.mpr h⟩
  exact hstart.iterate n

/-- At every point of every run the cursors are in order, and the delegate is on a rung unless
    the program is empty.  In the middle of a step the bureaucrat is on a rung too.  A rung,
    whether of the tape or of a block, is executed with everything in range that it may touch,
    up to the last of its edits, and leaves the cursors in order again.  If the run ends, its
    end is one of these points. -/
theorem cursors_stay_in_order (m : Machine) (program : List Rung) :
    (∀ n, (m.pointAt program n).machine.InOrder ∧
      (program ≠ [] → (m.pointAt program n).machine.delegate <
        (m.pointAt program n).machine.tape.length) ∧
      (∀ calls m₁, m.pointAt program n = .within calls m₁ → m₁.bureaucrat < m₁.tape.length) ∧
      ∀ frame rung m₁, (m.pointAt program n).upcoming? = some (frame, rung, m₁) →
        m₁.OnTape ∧ (∀ m₂, Edits (m₁.begin frame rung) m₂ → m₂.InRange) ∧
        ∀ depth signal m₂, execute depth frame rung m₁ = some (signal, m₂) →
          m₂.InOrder ∧ m₂.delegate < m₂.tape.length ∧
            (signal = .proceed → m₂.bureaucrat < m₂.tape.length)) ∧
    ∀ fuel reason m', m.run fuel program = some (reason, m') →
      ∃ n, m.pointAt program n = .ended reason m' := by
  refine ⟨fun n => ?_, fun _ _ _ hrun => exists_pointAt_of_run hrun⟩
  have h := m.pointAt_ordered program n
  refine ⟨h.inOrder, h.delegate_lt, fun calls m₁ hp => ?_, fun frame rung m₁ hup => ?_⟩
  · rw [hp] at h
    exact h.bureaucrat_lt
  · -- Every edit starts from a machine whose bureaucrat is on a rung, and keeps it there.
    have hon := h.onTape_of_upcoming? hup
    have hbegin : (m₁.begin frame rung).OnTape := ⟨hon.delegate_le, hon.bureaucrat_lt⟩
    refine ⟨hon, fun m₂ hedits => (hedits.onTape hbegin).inRange,
      fun depth signal m₂ hexecute => ?_⟩
    -- The execution leads to the point after it, which is in order for the same reason.
    obtain ⟨k, hk⟩ := reaches_of_execute hexecute []
    have henter : (Point.enter [] frame rung m₁).Ordered [rung] :=
      Point.ordered_enter hon [] frame rung
    have hafter := henter.iterate k
    rw [hk] at hafter
    refine ⟨?_, ?_, ?_⟩
    · cases signal <;> exact hafter.inOrder
    · cases signal <;> exact hafter.delegate_lt (List.cons_ne_nil _ _)
    · rintro rfl
      exact OnTape.bureaucrat_lt hafter

end Machine

end Verse
