import Verse.Proofs.Machine.Act
import Verse.Proofs.Machine.Point

/-!
# The journal of a run

The journal only ever grows.  Between two points of a run it is told of at most one
execution, and then of what comes of it.

* `Edits.tells`, `Act.tells`    edits make remarks, and no act is an execution
* `next_journal`                the journal from point to point
-/

namespace Verse

/-- Whether an event is the execution of a rung. -/
def Event.isExecution : Event → Bool
  | .executed .. => true
  | _ => false

namespace Machine

/-- The journal of the one machine goes on in that of the other, with events of a kind. -/
def Tells (kind : Event → Prop) (m m' : Machine) : Prop :=
  ∃ told, m'.journal = told ++ m.journal ∧ ∀ event ∈ told, kind event

variable {kind : Event → Prop}

/-- A machine has nothing to tell of itself. -/
theorem Tells.refl (m : Machine) : m.Tells kind m :=
  ⟨[], rfl, List.forall_mem_nil _⟩

/-- What is told twice is told in all. -/
theorem Tells.trans {m₁ m₂ m₃ : Machine} (h : m₁.Tells kind m₂) (h' : m₂.Tells kind m₃) :
    m₁.Tells kind m₃ := by
  obtain ⟨told, htold, hkind⟩ := h
  obtain ⟨told', htold', hkind'⟩ := h'
  refine ⟨told' ++ told, by rw [htold', htold, List.append_assoc], fun event hevent => ?_⟩
  exact (List.mem_append.mp hevent).elim (hkind' event) (hkind event)

/-- Events of a narrower kind are events of a wider one. -/
theorem Tells.mono {m m' : Machine} {kind' : Event → Prop} (h : m.Tells kind m')
    (hkind : ∀ event, kind event → kind' event) : m.Tells kind' m' := by
  obtain ⟨told, htold, htoldkind⟩ := h
  exact ⟨told, htold, fun event hevent => hkind event (htoldkind event hevent)⟩

/-- Making a note of an event, with whatever else happens to the machine. -/
theorem tells_of_cons {m m' : Machine} {event : Event} (h : m'.journal = event :: m.journal)
    (hkind : kind event) : m.Tells kind m' :=
  ⟨[event], h, fun _ hmem => List.mem_singleton.mp hmem ▸ hkind⟩

/-- Edits make remarks. -/
theorem Edits.tells {m m' : Machine} (h : Edits m m') :
    m.Tells (fun event => event.isRemark = true) m' := by
  induction h with
  | refl => exact .refl m
  | tail _ hedit ih =>
    refine ih.trans ?_
    cases hedit with
    | record h => exact tells_of_cons rfl h
    | draw _ | march _ | drift _ | change _ _ | assign _ _ _ _ | advance _ _ =>
      exact ⟨[], rfl, List.forall_mem_nil _⟩

/-- Attending to the input may remark on a garbled line. -/
theorem tells_heeded (m : Machine) : m.Tells (fun event => event.isRemark = true) m.heeded := by
  unfold heeded
  split
  · exact tells_of_cons rfl rfl
  · exact ⟨[], rfl, List.forall_mem_nil _⟩

/-- A capture may remark on a block without a variable. -/
theorem tells_captured (m : Machine) (name : Rung) (last : Nat) :
    m.Tells (fun event => event.isRemark = true) (m.captured name last) := by
  unfold captured
  split
  · exact ⟨[], rfl, List.forall_mem_nil _⟩
  · exact tells_of_cons rfl rfl

/-- No remark is an execution. -/
theorem isExecution_of_isRemark (event : Event) (h : event.isRemark = true) :
    event.isExecution = false := by
  cases event with
  | executed _ _ _ _ => cases h
  | printed _ | heard _ | noticed _ | failed _ => rfl

/-- What a rung does by itself is not the execution of another one. -/
theorem Act.tells {m : Machine} {rung : Rung} {result : Signal × Machine}
    (h : Act m rung result) : m.Tells (fun event => event.isExecution = false) result.2 := by
  cases h with
  | effect _ h =>
    cases h with
    | proceed h => exact h.tells.mono isExecution_of_isRemark
    | pushed h how =>
      exact (h.tells.mono isExecution_of_isRemark).trans (tells_of_cons rfl rfl)
  | heaven _ => exact .refl m
  | heard _ _ =>
    exact (m.tells_heeded.mono isExecution_of_isRemark).trans (tells_of_cons rfl rfl)
  | fetched _ _ _ | unheard _ _ _ => exact m.tells_heeded.mono isExecution_of_isRemark
  | captured _ _ => exact (m.tells_captured _ _).mono isExecution_of_isRemark
  | endless _ _ _ => exact tells_of_cons rfl rfl

end Machine

namespace Point

open Machine

/-- What the journal is told of on the way to the next point. -/
theorem next_journal (p : Point) :
    (p.upcoming? = none ∧ p.next.machine.journal = p.machine.journal) ∨
    ∃ frame rung m told, p.upcoming? = some (frame, rung, m) ∧
      p.next.machine.journal =
        told ++ .executed m.steps frame rung m.toSnapshot :: p.machine.journal ∧
      ∀ event ∈ told, event.isExecution = false := by
  obtain ⟨hnone, _, hnext⟩ | ⟨calls, frame, rung, moved, hup, hnext⟩ := p.next_cases
  · exact .inl ⟨hnone, by rw [hnext]⟩
  · -- The execution itself is noted first, and then what the act tells.
    obtain ⟨told, htold, hkind⟩ :=
      ((({ p.machine with moved } : Machine).begin frame rung).act_cases rung).tells
    refine .inr ⟨frame, rung, _, told, hup, ?_, hkind⟩
    rw [hnext, enter, machine_settle, htold]
    rfl

end Point

end Verse
