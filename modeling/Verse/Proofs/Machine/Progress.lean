import Verse.Proofs.Machine.Cursors
import Verse.Proofs.Machine.Supply
import Verse.Proofs.Machine.Turns

/-!
# Progress towards the end of the tape

Only `Promote`, `Demote` and `Blossom` take the bureaucrat back.  Whatever else the rungs of a
step do, with blocks called from blocks, rungs read onto the tape or moved to its front, and
blocks captured, they leave no more rungs ahead of the bureaucrat than there were, and then it
moves on by one.

* `Act.advances`                       no act takes the bureaucrat back but a move
* `execute_keeps`                      from what acts keep to what executing a rung keeps
* `remaining_lt_of_step`               hence a step leaves less of the tape
* `Point.Paced.next`                   a run without moves, point by point
* `steps_are_bounded_without_moves`    the steps of such a run
-/

namespace Verse

namespace Machine

/-- How many rungs there are from the bureaucrat to the end of the tape. -/
def remaining (m : Machine) : Nat :=
  m.tape.length - m.bureaucrat

/-- The bureaucrat is on a rung, and unless a rung has moved it since, there are no more rungs
    ahead of it than there were. -/
structure Advances (m m' : Machine) : Prop where
  onTape : m'.OnTape
  moved : m'.moved = false → m.moved = false
  remaining_le : m'.moved = false → m'.remaining ≤ m.remaining

variable {m m' m₁ m₂ m₃ : Machine}

/-- A machine on its tape has come no less far than itself. -/
theorem Advances.refl (hm : m.OnTape) : m.Advances m :=
  ⟨hm, id, fun _ => Nat.le_refl _⟩

/-- Two advances are one, and the flag that the second leaves down has been down since the first.
    -/
theorem Advances.trans (h : m₁.Advances m₂) (h' : m₂.Advances m₃) : m₁.Advances m₃ where
  onTape := h'.onTape
  moved hmoved := h.moved (h'.moved hmoved)
  remaining_le hmoved := (h'.remaining_le hmoved).trans (h.remaining_le (h'.moved hmoved))

/-! ## Acts -/

/-- An edit that does not raise the flag leaves as many rungs ahead as there were. -/
theorem Edit.advances (h : Edit m m') (hm : m.OnTape) : m.Advances m' := by
  have hon := h.onTape hm
  cases h with
  | march _ =>
    -- A move is what raises the flag.
    exact ⟨hon, fun hmoved => absurd hmoved (by simp), fun hmoved => absurd hmoved (by simp)⟩
  | change _ _ =>
    refine ⟨hon, id, fun _ => ?_⟩
    simp only [remaining, List.length_set, Nat.le_refl]
  | record _ | draw _ | drift _ | assign _ _ _ _ | advance _ _ =>
    exact ⟨hon, id, fun _ => Nat.le_refl _⟩

/-- Edits one after the other do so too. -/
theorem Edits.advances (h : Edits m m') (hm : m.OnTape) : m.Advances m' := by
  induction h with
  | refl => exact .refl hm
  | tail _ hedit ih => exact ih.trans (hedit.advances ih.onTape)

/-- Attending to the input keeps the bureaucrat's place. -/
theorem advances_heeded (hm : m.OnTape) : m.Advances m.heeded := by
  refine ⟨hm.heeded, fun hmoved => m.still_heeded.moved.symm.trans hmoved, fun _ => ?_⟩
  rw [remaining, remaining, tape_heeded, bureaucrat_heeded]

/-- A rung put at the front is not ahead of the bureaucrat. -/
theorem advances_insert_zero (hm : m.OnTape) (rung : Rung) : m.Advances (m.insert rung 0) := by
  refine ⟨hm.insert_zero rung, id, fun _ => ?_⟩
  simp only [remaining, insert, Nat.zero_le, if_true, List.insertIdx_zero, List.length_cons]
  omega

/-- A rung taken out behind the bureaucrat was ahead of it. -/
theorem advances_erase_succ (hm : m.OnTape) : m.Advances (m.erase (m.bureaucrat + 1)) := by
  refine ⟨hm.erase_succ, id, fun _ => ?_⟩
  simp only [remaining, erase, List.length_eraseIdx]
  rw [if_neg (show ¬ m.bureaucrat + 1 < m.bureaucrat by omega)]
  split <;> omega

/-- A capture takes the bureaucrat to the end of the block. -/
theorem advances_captured (hm : m.OnTape) {name : Rung} {last : Nat}
    (hend : m.EndsAt name last) : m.Advances (m.captured name last) := by
  have hon := hm.captured hend
  have hlt := hend.name_lt
  unfold captured at hon ⊢
  split at hon <;> refine ⟨hon, id, fun _ => ?_⟩ <;>
    simp only [remaining, notice, record] <;> omega

/-- An act after which the run goes on advances. -/
theorem Act.advances {rung : Rung} (h : Act m rung (.proceed, m')) (hm : m.OnTape) :
    m.Advances m' := by
  generalize hresult : ((.proceed, m') : Signal × Machine) = result at h
  cases h with
  | effect _ h =>
    cases h with
    | proceed h =>
      obtain ⟨-, rfl⟩ := Prod.mk.inj hresult
      exact h.advances hm
    -- Being pushed off the tape, like the two acts that end a run, is none after which it goes
    -- on.
    | pushed _ _ => cases hresult
  | heaven _ | endless _ _ _ => cases hresult
  | @heard _ event _ =>
    obtain ⟨-, rfl⟩ := Prod.mk.inj hresult
    -- The journal and the count of values do not matter here.
    have hheeded := advances_heeded hm
    have h := hheeded.trans (advances_insert_zero hheeded.onTape (m.heardRung event))
    exact ⟨⟨h.onTape.delegate_le, h.onTape.bureaucrat_lt⟩, h.moved, h.remaining_le⟩
  | fetched _ _ _ =>
    obtain ⟨-, rfl⟩ := Prod.mk.inj hresult
    have hheeded := advances_heeded hm
    have herase := advances_erase_succ hheeded.onTape
    rw [bureaucrat_heeded] at herase
    exact hheeded.trans (herase.trans (advances_insert_zero herase.onTape _))
  | unheard _ _ _ =>
    obtain ⟨-, rfl⟩ := Prod.mk.inj hresult
    exact advances_heeded hm
  | captured _ hend =>
    obtain ⟨-, rfl⟩ := Prod.mk.inj hresult
    exact advances_captured hm hend

/-! ## Steps -/

section

variable {R : Machine → Machine → Prop} (hrefl : ∀ m, R m m)
    (htrans : ∀ m₁ m₂ m₃, R m₁ m₂ → R m₂ m₃ → R m₁ m₃)

include hrefl htrans

/-- What every rung of a block keeps is kept by the block. -/
theorem perform_keeps {e : Option Frame → Rung → Machine → Option (Signal × Machine)}
    (he : ∀ frame rung m m', e frame rung m = some (.proceed, m') → R m m') {name : String}
    {index : Nat} {rungs : List Rung} (h : perform e name index rungs m = some (.proceed, m')) :
    R m m' := by
  induction rungs generalizing index m with
  | nil =>
    cases h
    exact hrefl _
  | cons rung rest ih =>
    rw [perform] at h
    cases hrung : e (some ⟨name, index⟩) rung m with
    | none =>
      rw [hrung] at h
      cases h
    | some first =>
      rw [hrung] at h
      obtain ⟨signal, m₁⟩ := first
      cases signal with
      | stop reason => cases h
      | proceed => exact htrans _ _ _ (he _ _ _ _ hrung) (ih h)

/-- What every act keeps that lets the run go on is kept when a rung is executed, with all the
    rungs of the blocks that it calls. -/
theorem execute_keeps (hbegin : ∀ m frame rung, R m (m.begin frame rung))
    (hact : ∀ m rung m', m.act rung = (.proceed, m') → R m m') {depth : Nat}
    {frame : Option Frame} {rung : Rung} (h : execute depth frame rung m = some (.proceed, m')) :
    R m m' := by
  induction depth generalizing frame rung m m' with
  | zero =>
    cases hcall : (m.begin frame rung).called? rung with
    | none =>
      rw [execute_of_none hcall, Option.some.injEq] at h
      -- The note of the execution comes first, and then the act.
      exact htrans _ _ _ (hbegin m frame rung) (hact _ _ _ h)
    | some call =>
      rw [execute_zero_of_some hcall] at h
      cases h
  | succ depth ih =>
    cases hcall : (m.begin frame rung).called? rung with
    | none =>
      rw [execute_of_none hcall, Option.some.injEq] at h
      exact htrans _ _ _ (hbegin m frame rung) (hact _ _ _ h)
    | some call =>
      rw [execute_succ_of_some hcall] at h
      exact htrans _ _ _ (hbegin m frame rung)
        (perform_keeps hrefl htrans (fun _ _ _ _ => ih) h)

end

/-- A rung that is executed advances, with all the blocks that it calls. -/
theorem advances_of_execute {depth : Nat} {frame : Option Frame} {rung : Rung} (hm : m.OnTape)
    (h : execute depth frame rung m = some (.proceed, m')) : m.Advances m' := by
  -- What an act keeps depends on the tape, so the relation asks for it first.
  have hkeeps : m.OnTape → m.Advances m' := by
    refine execute_keeps (R := fun m m' => m.OnTape → m.Advances m') (fun _ hm => .refl hm)
      ?_ ?_ ?_ h
    · intro m₁ m₂ m₃ h₁ h₂ hm₁
      exact (h₁ hm₁).trans (h₂ (h₁ hm₁).onTape)
    · intro m frame rung hm
      exact ⟨⟨hm.delegate_le, hm.bureaucrat_lt⟩, id, fun _ => Nat.le_refl _⟩
    · intro m rung m' hact hm
      have h := m.act_cases rung
      rw [hact] at h
      exact h.advances hm
  exact hkeeps hm

/-- A step after which the run goes on has come closer to the end of the tape, unless a rung has
    moved the bureaucrat. -/
theorem remaining_lt_of_step {depth : Nat} (horder : m.InOrder)
    (h : m.step depth = some (.proceed, m')) (hmoved : m'.moved = false) :
    m'.remaining < m.remaining := by
  rw [step] at h
  split at h
  case h_1 => cases h
  case h_2 rung hrung =>
    obtain ⟨⟨signal, m₁⟩, hexecute, hresult⟩ := Option.map_eq_some_iff.mp h
    cases signal with
    | stop reason => cases hresult
    | proceed =>
      obtain ⟨-, rfl⟩ := Prod.mk.inj hresult
      have hon : OnTape { m with moved := false } :=
        ⟨horder.delegate_le, (List.getElem?_eq_some_iff.mp hrung).1⟩
      have hadvances := advances_of_execute hon hexecute
      split at hmoved
      case isTrue hyes =>
        rw [hyes] at hmoved
        cases hmoved
      case isFalse hno =>
        -- The bureaucrat is on a rung after the execution, and passes it.
        have hle := hadvances.remaining_le (Bool.eq_false_iff.mpr hno)
        have hlt := hadvances.onTape.bureaucrat_lt
        rw [if_neg hno]
        simp only [remaining] at hle ⊢
        omega

/-! ## Runs without moves -/

/-- No rung turns into one that moves the bureaucrat. -/
theorem isLasting_isMarch_eq_false : Rung.IsLasting fun rung => rung.isMarch = false where
  change hchange hold := by
    cases hchange with
    | overwrite _ _ | ascend _ => rfl
    | advance _ _ => exact hold
  heard _ _ := rfl

/-- Rungs of any lasting kind do without an exchange that changes nothing. -/
theorem doesWithout_id {P : Rung → Prop} (hP : Rung.IsLasting P) : DoesWithout P id id where
  lasting := hP
  draws _ _ _ := rfl
  listens _ _ := rfl

end Machine

/-- Related runs execute related rungs. -/
theorem Lockstep.exists_upcoming {R : Machine → Machine → Prop} {S : Rung → Rung → Prop}
    (hL : Lockstep R S) {p p' : Point} (h : Point.Pairs R S p p') {frame : Option Frame}
    {rung : Rung} {m : Machine} (hup : p.upcoming? = some (frame, rung, m)) :
    ∃ rung', S rung rung' := by
  cases h with
  | @ready m₀ m₀' h =>
    obtain ⟨rung, hrung, heq⟩ := Option.map_eq_some_iff.mp hup
    cases heq
    obtain ⟨hnone, -⟩ | ⟨rung, rung', hsome, -, hS⟩ := option_rel_cases (hL.tape h m₀.bureaucrat)
    · rw [hrung] at hnone
      cases hnone
    · -- There is a rung on the one tape, so the relation gives one on the other.
      obtain rfl := Option.some.inj (hrung.symm.trans hsome)
      exact ⟨rung', hS⟩
  | within hcalls h =>
    cases hcalls with
    | nil => cases hup
    | cons hcall hcalls =>
      obtain ⟨name, index, hrest⟩ := hcall
      cases hrest with
      | nil => cases hup
      | cons hrung hrest =>
        cases hup
        exact ⟨_, hrung⟩
  | ended reason h => cases hup

namespace Point

open Machine

/-- How a run without moves stands after it has executed some rungs of the tape: those and the
    ones ahead are no more than the program has, and the flag has not been raised. -/
def Paced (length executed : Nat) : Point → Prop
  | .ready m => m.moved = false ∧ executed + m.remaining ≤ length
  -- The rung being executed is still counted among those ahead.
  | .within _ m => m.moved = false ∧ executed + m.remaining ≤ length + 1
  | .ended _ _ => executed ≤ length

variable {length executed : Nat}

/-- A rung that does not move the bureaucrat keeps the pace when it is entered. -/
theorem paced_enter {m : Machine} (hm : m.OnTape) (hmoved : m.moved = false) {rung : Rung}
    (hrung : rung.isMarch = false) (h : executed + m.remaining ≤ length + 1) (calls : List Call)
    (frame : Option Frame) : (enter calls frame rung m).Paced length executed := by
  have hbegin : (m.begin frame rung).OnTape := ⟨hm.delegate_le, hm.bureaucrat_lt⟩
  have hflag := (m.begin frame rung).moved_act hrung
  have hact := (m.begin frame rung).act_cases rung
  rw [enter]
  generalize (m.begin frame rung).act rung = result at hflag hact
  obtain ⟨signal, m'⟩ := result
  cases signal with
  | stop reason =>
    -- There is at least the rung that the bureaucrat is on.
    have hlt := hm.bureaucrat_lt
    simp only [remaining] at h
    show executed ≤ length
    omega
  | proceed =>
    have hm' : m'.moved = false := hflag.trans hmoved
    have hle : m'.remaining ≤ m.remaining := (hact.advances hbegin).remaining_le hm'
    exact ⟨hm', by omega⟩

/-- From point to point the pace is kept, one rung of the tape at a time. -/
theorem Paced.next {p : Point} {program : List Rung} (h : p.Paced length executed)
    (hordered : p.Ordered program)
    (hmarch : ∀ frame rung m, p.upcoming? = some (frame, rung, m) → rung.isMarch = false) :
    p.next.Paced length (executed + p.turn?.toList.countP fun turn => turn.frame.isNone) := by
  cases p using shape_cases with
  | ready m =>
    obtain ⟨hmoved, hle⟩ := h
    -- Only a point between two steps counts a rung of the tape, the one that it enters.
    cases hrung : m.tape[m.bureaucrat]? with
    | none =>
      have hturn : (Point.ready m).turn? = none := by simp [turn?, upcoming?, hrung]
      rw [hturn, Point.next, hrung]
      show executed ≤ length
      omega
    | some rung =>
      have hup : (Point.ready m).upcoming? = some (none, rung, { m with moved := false }) := by
        rw [upcoming?, hrung, Option.map_some]
      have hon : OnTape { m with moved := false } :=
        ⟨hordered.1.delegate_le, (List.getElem?_eq_some_iff.mp hrung).1⟩
      have hcount : ((Point.ready m).turn?.toList.countP fun turn => turn.frame.isNone) = 1 := by
        rw [turn?, hup]
        rfl
      rw [hcount, Point.next, hrung]
      refine paced_enter hon rfl (hmarch _ _ _ hup) ?_ [] none
      show executed + 1 + m.remaining ≤ length + 1
      omega
  | stepped m =>
    -- The step is over, and the rung that it has counted is no longer ahead.
    obtain ⟨hmoved, hle⟩ := h
    have hlt : m.bureaucrat < m.tape.length := OnTape.bureaucrat_lt hordered
    rw [Point.next, if_neg (by simp [hmoved])]
    refine ⟨hmoved, ?_⟩
    simp only [remaining] at hle ⊢
    show executed + 0 + _ ≤ length
    omega
  | returning _ _ _ _ | ended _ _ => exact h
  | inBlock name index rung rest calls m =>
    -- A rung of a block is none of the tape.
    obtain ⟨hmoved, hle⟩ := h
    exact paced_enter hordered hmoved (hmarch _ _ _ rfl) hle _ _

end Point

namespace Machine

variable {m : Machine} {program : List Rung}

/-- How many rungs of the tape have been executed up to a point of a run. -/
def stepsOfTape (m : Machine) (program : List Rung) (n : Nat) : Nat :=
  (m.turns program n).countP fun turn => turn.frame.isNone

/-- In a run without moves no rung that is executed moves the bureaucrat. -/
theorem isMarch_of_upcoming? (hprogram : ∀ rung ∈ program, rung.isMarch = false) {n : Nat}
    {frame : Option Frame} {rung : Rung} {m₁ : Machine}
    (hup : (m.pointAt program n).upcoming? = some (frame, rung, m₁)) : rung.isMarch = false := by
  have hP := doesWithout_id isLasting_isMarch_eq_false
  have hstart : Resupplied (fun rung => rung.isMarch = false) id id (m.start program)
      (m.start program) := ⟨rfl, m.allRungs_start hprogram⟩
  obtain ⟨rung', -, hrung⟩ := hP.lockstep.exists_upcoming (hP.lockstep.pointAt hstart n) hup
  exact hrung

/-- A run without moves keeps the pace at every point. -/
theorem paced_pointAt (hprogram : ∀ rung ∈ program, rung.isMarch = false) (n : Nat) :
    (m.pointAt program n).Paced program.length (m.stepsOfTape program n) := by
  induction n with
  | zero => exact ⟨rfl, by simp [stepsOfTape, turns, remaining, start]⟩
  | succ n ih =>
    have hnext := ih.next (m.pointAt_ordered program n) fun _ _ _ => isMarch_of_upcoming? hprogram
    rw [stepsOfTape, turns_succ, List.countP_append, pointAt_succ]
    exact hnext

/-- If every step of a run without moves returns, the run comes to its end in no more steps than
    there are rungs ahead, and one that finds the end of the tape. -/
theorem exists_loop_of_remaining_le (hprogram : ∀ rung ∈ program, rung.isMarch = false)
    (hreturns : ∀ n m₁, m.pointAt program n = .ready m₁ →
      ∃ depth result, m₁.step depth = some result) {limit n : Nat} {m₁ : Machine}
    (hpoint : m.pointAt program n = .ready m₁) (hle : m₁.remaining ≤ limit) :
    ∃ depth reason m', loop depth (limit + 1) m₁ = some (reason, m') := by
  induction limit using Nat.strongRecOn generalizing n m₁ with
  | ind limit ih =>
    obtain ⟨depth, ⟨signal, m₂⟩, hstep⟩ := hreturns n m₁ hpoint
    cases signal with
    -- The step ends the run, so one round of the loop is enough.
    | stop reason => exact ⟨depth, reason, m₂, by rw [loop, hstep]⟩
    | proceed =>
      -- The run goes on from a point at which the flag has not been raised.
      obtain ⟨j, hj⟩ := reaches_of_step hstep
      have hnext : m.pointAt program (n + j) = .ready m₂ := by rw [pointAt_add, hpoint, hj]; rfl
      have hmoved : m₂.moved = false := by
        have hpaced := paced_pointAt (m := m) hprogram (n + j)
        rw [hnext] at hpaced
        exact hpaced.1
      have horder : m₁.InOrder := by
        have hordered := m.pointAt_ordered program n
        rw [hpoint] at hordered
        exact hordered.1
      have hlt := remaining_lt_of_step horder hstep hmoved
      obtain ⟨depth', reason, m', hloop⟩ := ih (limit - 1) (by omega) hnext (by omega)
      rw [Nat.sub_add_cancel (by omega)] at hloop
      refine ⟨max depth depth', reason, m', ?_⟩
      rw [loop, step_mono (Nat.le_max_left depth depth') hstep]
      exact loop_mono (Nat.le_max_right depth depth') (Nat.le_refl limit) hloop

/-- In every run, a step after which the run goes on leaves fewer rungs ahead of the bureaucrat
    than there were, unless the flag says that a rung has moved it.

    Without `Promote`, `Demote` and `Blossom` in the program no step raises the flag, and the
    rungs of the tape that are executed as steps of their own are never more than the program
    has.  If every step returns, so does the run: it makes no more steps than that, and one more
    to find the end of the tape. -/
theorem steps_are_bounded_without_moves (m : Machine) (program : List Rung) :
    (∀ n m₁ depth m₂, m.pointAt program n = .ready m₁ →
      m₁.step depth = some (.proceed, m₂) → m₂.moved = false → m₂.remaining < m₁.remaining) ∧
    ((∀ rung ∈ program, rung.isMarch = false) →
      (∀ n m₁, m.pointAt program n = .ready m₁ → m₁.moved = false) ∧
      (∀ n, m.stepsOfTape program n ≤ program.length) ∧
      ((∀ n m₁, m.pointAt program n = .ready m₁ → ∃ depth result, m₁.step depth = some result) →
        ∃ depth reason m', (m.start program).loop depth (program.length + 1) =
          some (reason, m'))) := by
  refine ⟨fun n m₁ depth m₂ hpoint hstep hmoved => ?_, fun hprogram => ⟨fun n m₁ hpoint => ?_,
    fun n => ?_, fun hreturns => ?_⟩⟩
  · have hordered := m.pointAt_ordered program n
    rw [hpoint] at hordered
    exact remaining_lt_of_step hordered.1 hstep hmoved
  · have hpaced := paced_pointAt (m := m) hprogram n
    rw [hpoint] at hpaced
    exact hpaced.1
  · have hpaced := paced_pointAt (m := m) hprogram n
    have hordered := m.pointAt_ordered program n
    -- Within a step the rung under the bureaucrat makes up for the one that is counted already.
    generalize m.pointAt program n = p at hpaced hordered
    cases p with
    | ready m₁ => exact (Nat.le_add_right _ _).trans hpaced.2
    | within calls m₁ =>
      have hlt : m₁.bureaucrat < m₁.tape.length := OnTape.bureaucrat_lt hordered
      have hle := hpaced.2
      simp only [remaining] at hle
      omega
    | ended reason m₁ => exact hpaced
  · have hpoint : m.pointAt program 0 = .ready (m.start program) := rfl
    exact exists_loop_of_remaining_le hprogram hreturns hpoint (Nat.le_refl _)

/-- The steps of a run that ends return. -/
theorem exists_step_of_run {m m' m₁ : Machine} {program : List Rung} {fuel n : Nat}
    {reason : StopReason} (hrun : m.run fuel program = some (reason, m'))
    (hpoint : m.pointAt program n = .ready m₁) : ∃ depth result, m₁.step depth = some result := by
  obtain ⟨depth, limit, hloop⟩ := exists_loop_of_run hrun hpoint
  cases limit with
  | zero => cases hloop
  | succ limit =>
    rw [loop] at hloop
    cases hstep : m₁.step depth with
    | none =>
      rw [hstep] at hloop
      cases hloop
    | some result => exact ⟨depth, result, hstep⟩

/-- A program that captures `echo`, which listens and counts, performs it twice, and listens once
    more. -/
def echoing : List Rung :=
  let rung (name : String) (cell : Cell) : Rung :=
    { position := .input 0, name, element := .earth, cell }
  let mark := rung "." .punctuation
  let echo := rung "echo" (.variable "echo")
  let listen := rung "listen" (.command .listen)
  [rung "one" (.literal 1.0), mark, echo, listen, rung "count" (.command .count), mark, echo, echo,
    listen]

/-- There is nothing to be heard, so that listening moves the rung ahead of the bureaucrat to the
    front.  The first step passes the literal, and the run is over before the tenth. -/
theorem steps_are_bounded_without_moves_echoing :
    let m : Machine := { generator := .ofSeed 0 }
    (∀ rung ∈ echoing, rung.isMarch = false) ∧
    (∀ n, m.stepsOfTape echoing n ≤ 9) ∧
    (∃ depth reason m', (m.start echoing).loop depth 10 = some (reason, m')) ∧
    ∃ m₂, (m.start echoing).step 0 = some (.proceed, m₂) ∧ m₂.moved = false ∧
      m₂.remaining < 9 := by
  intro m
  have hmarch : ∀ rung ∈ echoing, rung.isMarch = false := by decide
  have hended : (m.run 20 echoing).map Prod.fst = some .ranOffEnd := by decide +kernel
  obtain ⟨⟨reason, left⟩, hrun, -⟩ := Option.map_eq_some_iff.mp hended
  obtain ⟨hless, hbounded⟩ := steps_are_bounded_without_moves m echoing
  obtain ⟨-, hsteps, hends⟩ := hbounded hmarch
  refine ⟨hmarch, hsteps, hends fun n m₁ hpoint => exists_step_of_run hrun hpoint, ?_⟩
  obtain ⟨m₂, hstep, hmoved⟩ : ∃ m₂, (m.start echoing).step 0 = some (.proceed, m₂) ∧
      m₂.moved = false := ⟨_, rfl, rfl⟩
  exact ⟨m₂, hstep, hmoved, hless 0 (m.start echoing) 0 m₂ rfl hstep hmoved⟩

end Machine

end Verse
