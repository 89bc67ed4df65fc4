import Verse.Proofs.Machine.Cursors
import Verse.Proofs.Machine.Still
import Verse.Proofs.Numeric.Offset

/-!
# Moves by nothing

`Blossom` does nothing for a number that gives the offset zero.  `Promote` and `Demote` do nothing
for a number that is equal to zero, and that leaves out NaN: it is not equal to zero, but its
offset is.  They then count as having moved the bureaucrat, which stays where it is, so that the
same rung is executed again with the same operand, and so on for ever.

* `marches_dispatch`                 what `Promote`, `Demote` and `Blossom` do
* `march_stays_iff`                  a move that ends where it began is one by zero
* `step_march_cases`                 a step on one of the three commands
* `Stalls.step`, `Stalls.loop`       a step that changes nothing, and so on for ever
* `only_nan_stalls_the_bureaucrat`   for which numbers the commands move, pass and stall
-/

namespace Verse

open Numeric

/-! ## The numbers that move the bureaucrat -/

namespace Command

/-- How far a number sends the bureaucrat. -/
def stride (command : Command) (value : Float) : Int :=
  match command with
  | .promote => offset value
  | .demote => reverse (offset value)
  | .blossom => if isOddOffset (offset value) then offset value else reverse (offset value)
  | _ => 0

/-- A number for which the bureaucrat is moved although there is no way to go. -/
def IsStalledBy (command : Command) (value : Float) : Prop :=
  command ≠ .blossom ∧ decode value = .nan

/-- A number for which the bureaucrat is moved. -/
def IsMovedBy (command : Command) (value : Float) : Prop :=
  offset value ≠ 0 ∨ command.IsStalledBy value

variable {command : Command} {value : Float}

/-- A number has no stride if and only if it has no offset, turned around or not. -/
theorem stride_eq_zero_iff (h : command.isMarch = true) :
    command.stride value = 0 ↔ offset value = 0 := by
  cases command with
  | promote => exact Iff.rfl
  | demote => exact reverse_eq_zero_iff _
  | blossom =>
    rw [stride]
    split
    · exact Iff.rfl
    · exact reverse_eq_zero_iff _
  | _ => cases h

/-- `Promote` and `Demote` are moved by what is not equal to zero. -/
theorem isMovedBy_iff_beq_zero (h : command ≠ .blossom) :
    command.IsMovedBy value ↔ (value == 0.0) = false := by
  rw [IsMovedBy, IsStalledBy, Ne, offset_eq_zero_iff, ← Bool.not_eq_true]
  -- A zero is no NaN.
  have hnan : decode value = .nan → ¬ (value == 0.0) = true := by
    intro hdecode hzero
    obtain ⟨negative, exponent, hfinite⟩ := (beq_zero_iff value).mp hzero
    rw [hdecode] at hfinite
    cases hfinite
  tauto

/-- `Blossom` is moved by every number with an offset, and by no other. -/
theorem isMovedBy_blossom_iff : IsMovedBy .blossom value ↔ offset value ≠ 0 := by
  simp [IsMovedBy, IsStalledBy]

/-- What stalls a command is no number, and has no offset. -/
theorem IsStalledBy.offset_eq_zero (h : command.IsStalledBy value) : offset value = 0 :=
  (offset_eq_zero_iff value).mpr (.inl h.2)

end Command

namespace Machine

open Command

variable {m m' : Machine} {command : Command} {value : Float}

/-! ## Reading -/

/-- A rung without a number is read without a draw. -/
theorem readAt_eq_of_none {index : Nat} (h : (m.readAt index).1 = none) :
    m.readAt index = (none, m) := by
  refine Prod.ext h ?_
  cases hrung : m.tape[index]? with
  | none => simp only [readAt, hrung]
  | some rung =>
    cases hcell : rung.cell with
    | command command =>
      cases hrange : command.range? with
      | none => simp only [readAt, hrung, read, hcell, hrange]
      | some range =>
        simp only [readAt, hrung, read, hcell, hrange] at h
        cases h
    | _ => simp only [readAt, hrung, read, hcell]

/-- A number with the offset zero is never drawn. -/
theorem readAt_eq_of_offset_eq_zero {index : Nat} (h : (m.readAt index).1 = some value)
    (hzero : offset value = 0) : m.readAt index = (some value, m) := by
  refine Prod.ext h ?_
  obtain ⟨rung, hrung, hcell | ⟨name, hcell, -⟩ | ⟨command, n, -, rfl, hpos, hmax⟩⟩ :=
    readAt_eq_some h
  · simp only [readAt, hrung, read, hcell]
  · simp only [readAt, hrung, read, hcell]
  · rw [offset_eq_zero_iff, decode_ofNat hpos (by omega), ofNat_beq_zero hpos (by omega)] at hzero
    simp at hzero

/-- Nothing has been drawn for a number whose offset is zero. -/
theorem generator_of_offset_eq_zero {index : Nat} {generator : Generator}
    (h : m.readAt index = (some value, { m with generator })) (hzero : offset value = 0) :
    generator = m.generator :=
  congrArg (fun read => read.2.generator)
    (h.symm.trans (readAt_eq_of_offset_eq_zero (congrArg Prod.fst h) hzero))

/-! ## The three commands -/

/-- What a command that moves the bureaucrat does. -/
inductive Marches (m : Machine) (command : Command) : Signal × Machine → Prop
  /-- There is no number, or none to move by. -/
  | rest (h : ∀ value, (m.readAt m.delegate).1 = some value → ¬ command.IsMovedBy value) :
      Marches m command (.proceed, m)
  /-- The bureaucrat is moved, perhaps after a draw and a remark on a negative number. -/
  | move {value : Float} (hread : (m.readAt m.delegate).1 = some value)
      (hmoved : command.IsMovedBy value) {generator : Generator}
      (hdraw : offset value = 0 → generator = m.generator) (journal : List Event) (how : March) :
      Marches m command ({ m with generator, journal }.march how (command.stride value))

/-- Without a number the bureaucrat rests. -/
theorem Marches.of_none (h : (m.readAt m.delegate).1 = none) : Marches m command (.proceed, m) :=
  .rest fun value hread => by rw [h] at hread; cases hread

/-- So it does with one that does not move it. -/
theorem Marches.of_some (h : (m.readAt m.delegate).1 = some value)
    (hmoved : ¬ command.IsMovedBy value) : Marches m command (.proceed, m) := by
  refine .rest fun other hread => ?_
  rw [h] at hread
  rwa [← Option.some.inj hread]

/-- `Promote` and `Demote` do nothing for a zero and remark on a negative number. -/
theorem marches_nonzero {generator : Generator}
    (hread : m.readAt m.delegate = (some value, { m with generator }))
    (hcommand : command ≠ .blossom) (how : March) :
    Marches m command (if value == 0.0 then (.proceed, { m with generator })
      else (if value < 0.0 then { m with generator }.notice (.marchedNegative how value)
        else { m with generator }).march how (command.stride value)) := by
  have hvalue : (m.readAt m.delegate).1 = some value := congrArg Prod.fst hread
  split
  case isTrue hzero =>
    obtain rfl :=
      generator_of_offset_eq_zero hread ((offset_eq_zero_iff value).mpr (.inr hzero))
    refine .of_some hvalue fun hmoved => ?_
    rw [isMovedBy_iff_beq_zero hcommand, hzero] at hmoved
    cases hmoved
  case isFalse hzero =>
    have hmoved : command.IsMovedBy value :=
      (isMovedBy_iff_beq_zero hcommand).mpr (Bool.eq_false_iff.mpr hzero)
    have hdraw := generator_of_offset_eq_zero hread
    split
    · exact .move hvalue hmoved hdraw (.noticed (.marchedNegative how value) :: m.journal) how
    · exact .move hvalue hmoved hdraw m.journal how

/-- The three commands rest or move, each by its stride. -/
theorem marches_dispatch (m : Machine) (h : command.isMarch = true) :
    Marches m command (m.dispatch command) := by
  cases hvalue : (m.readAt m.delegate).1 with
  | none =>
    have hread := readAt_eq_of_none hvalue
    -- Without a number they do the same.
    cases command with
    | promote | demote | blossom =>
      simp only [dispatch, promote, demote, blossom, hread]
      exact .of_none hvalue
    | _ => cases h
  | some value =>
    obtain ⟨generator, hgenerator⟩ := m.exists_generator_readAt m.delegate
    have hread : m.readAt m.delegate = (some value, { m with generator }) :=
      Prod.ext hvalue hgenerator
    -- With one, `Promote` and `Demote` compare it with zero, and `Blossom` its offset.
    cases command with
    | promote =>
      have hpromote : Command.promote ≠ .blossom := by decide
      simp only [dispatch, promote, hread]
      exact marches_nonzero hread hpromote .promoted
    | demote =>
      have hdemote : Command.demote ≠ .blossom := by decide
      simp only [dispatch, demote, hread]
      exact marches_nonzero hread hdemote .demoted
    | blossom =>
      simp only [dispatch, blossom, hread]
      split
      case isTrue hzero =>
        obtain rfl := generator_of_offset_eq_zero hread hzero
        exact .of_some hvalue fun hmoved => isMovedBy_blossom_iff.mp hmoved hzero
      case isFalse hzero =>
        exact .move hvalue (isMovedBy_blossom_iff.mpr hzero) (generator_of_offset_eq_zero hread)
          m.journal .blossomed
    | _ => cases h

/-! ## Where a move ends -/

/-- A move sets the flag, whether it stays on the tape or not. -/
theorem moved_march (m : Machine) (how : March) (k : Int) : (m.march how k).2.moved = true := by
  unfold march
  dsimp only
  split
  · exact (still_fail { m with moved := true } _).moved
  · split <;> rfl

/-- Unless it starts at the start of the tape and goes back, a move that ends where it began is one
    by zero. -/
theorem march_stays_iff {how : March} {k : Int} (hlt : m.bureaucrat < m.tape.length)
    (hmax : (m.tape.length : Int) ≤ maxOffset) (hstart : m.bureaucrat ≠ 0)
    (h : m.march how k = (.proceed, m')) : m'.bureaucrat = m.bureaucrat ↔ k = 0 := by
  unfold march at h
  dsimp only at h
  split at h
  · cases h
  -- Within the bounds of offsets nothing is saturated, and only below the start is anything cut
  -- off.
  · obtain ⟨-, rfl⟩ := Prod.mk.inj h
    show (saturate (m.bureaucrat + k)).toNat = m.bureaucrat ↔ k = 0
    simp only [saturate, maxOffset, minOffset] at hmax ⊢
    omega

/-- A move by zero does no more than set the flag. -/
theorem march_zero (how : March) (hlt : m.bureaucrat < m.tape.length)
    (hmax : (m.tape.length : Int) ≤ maxOffset) (hle : m.delegate ≤ m.bureaucrat) :
    m.march how 0 = (.proceed, { m with moved := true }) := by
  have htarget : saturate (m.bureaucrat + 0) = m.bureaucrat := by
    simp only [saturate, maxOffset, minOffset] at hmax ⊢
    omega
  unfold march
  simp only [htarget]
  rw [if_neg (by omega), if_neg (by omega)]
  simp only [Int.toNat_natCast, Nat.min_eq_left hle]

/-! ## Steps -/

/-- The number that the rung at the delegate stands for. -/
def operand? (m : Machine) : Option Float :=
  (m.readAt m.delegate).1

/-- What a rung is read as is told by the tape, the variables and the generator. -/
theorem readAt_fst_congr (htape : m'.tape = m.tape) (hvars : m'.vars = m.vars)
    (hgenerator : m'.generator = m.generator) (index : Nat) :
    (m'.readAt index).1 = (m.readAt index).1 := by
  rw [readAt, readAt, htape]
  cases m.tape[index]? with
  | none => rfl
  | some rung =>
    simp only
    cases rung.cell with
    | command command => cases hrange : command.range? <;> simp only [read, hrange, hgenerator]
    | «variable» name => simp only [read, hvars]
    | _ => rfl

/-- A command that moves the bureaucrat has no number itself. -/
theorem readAt_of_isMarch {index : Nat} {rung : Rung} (hrung : m.tape[index]? = some rung)
    (hcell : rung.cell = .command command) (hmarch : command.isMarch = true) :
    (m.readAt index).1 = none := by
  have hrange : command.range? = none := by
    cases command with
    | promote | demote | blossom => rfl
    | _ => cases hmarch
  simp only [readAt, hrung, read, hcell, hrange]

section

variable {rung : Rung} (hrung : m.tape[m.bureaucrat]? = some rung)
  (hcell : rung.cell = .command command)
include hrung hcell

/-- A step on a command is the command, and moves on unless the command has moved. -/
theorem step_of_command {result : Signal × Machine}
    (h : ({ m with moved := false }.begin none rung).dispatch command = result) (depth : Nat) :
    (∀ m', result = (.proceed, m') → m'.moved = false →
      m.step depth = some (.proceed, { m' with bureaucrat := m'.bureaucrat + 1 })) ∧
    (result.2.moved = true → m.step depth = some result) := by
  have hcalled : ({ m with moved := false }.begin none rung).called? rung = none := by
    rw [called?, Rung.variableName?, hcell]
    rfl
  rw [step, hrung]
  dsimp only
  rw [execute_of_none hcalled, act, hcell]
  dsimp only
  rw [h, Option.map_some]
  refine ⟨?_, fun hmoved => ?_⟩
  · rintro m' rfl hmoved
    simp [hmoved]
  · obtain ⟨signal, m'⟩ := result
    cases signal with
    | stop reason => rfl
    | proceed => rw [if_pos hmoved]

/-- A step on one of the three commands passes it, or is a move by the number at the delegate. -/
theorem step_march_cases (hmarch : command.isMarch = true) (depth : Nat) :
    ((∀ value, m.operand? = some value → ¬ command.IsMovedBy value) ∧
      m.step depth = some (.proceed, { { m with moved := false }.begin none rung with
        bureaucrat := m.bureaucrat + 1 })) ∨
    ∃ (value : Float) (m₁ : Machine) (how : March),
      m.operand? = some value ∧ command.IsMovedBy value ∧
      m₁.toSnapshot = m.toSnapshot ∧ m₁.input = m.input ∧
      (offset value = 0 → m₁.generator = m.generator) ∧
      m.step depth = some (m₁.march how (command.stride value)) := by
  -- Executing the command begins with a note in the journal, which the number does not depend on.
  generalize hbegun : { m with moved := false }.begin none rung = m₀
  have hoperand : (m₀.readAt m₀.delegate).1 = m.operand? := by
    have hdelegate : m₀.delegate = m.delegate := by rw [← hbegun]; rfl
    rw [hdelegate]
    apply readAt_fst_congr <;> rw [← hbegun] <;> rfl
  have hmarches := marches_dispatch m₀ hmarch
  generalize hresult : m₀.dispatch command = result at hmarches
  have hstep := step_of_command hrung hcell (hbegun ▸ hresult) depth
  cases hmarches with
  | rest hrest =>
    subst hbegun
    rw [hoperand] at hrest
    exact .inl ⟨hrest, hstep.1 _ rfl rfl⟩
  | @move value hread hmoved generator hdraw journal how =>
    have hgenerator : m₀.generator = m.generator := by rw [← hbegun]; rfl
    exact .inr ⟨value, { m₀ with generator, journal }, how, hoperand.symm.trans hread, hmoved,
      by rw [← hbegun]; rfl, by rw [← hbegun]; rfl, fun hzero => (hdraw hzero).trans hgenerator,
      hstep.2 (moved_march _ how _)⟩

end

/-- A step that goes on leaves the bureaucrat where it was only if the command stalls. -/
theorem isStalledBy_of_step_stays {rung : Rung} (hrung : m.tape[m.bureaucrat]? = some rung)
    (hcell : rung.cell = .command command) (hmarch : command.isMarch = true)
    (hle : m.delegate ≤ m.bureaucrat) (hmax : (m.tape.length : Int) ≤ maxOffset) {depth : Nat}
    (h : m.step depth = some (.proceed, m')) (hstays : m'.bureaucrat = m.bureaucrat) :
    ∃ value, m.operand? = some value ∧ command.IsStalledBy value := by
  obtain ⟨-, hstep⟩ | ⟨value, m₁, how, hvalue, hmoved, hsnapshot, -, -, hstep⟩ :=
    step_march_cases hrung hcell hmarch depth
  · -- The bureaucrat has moved on by one.
    obtain ⟨-, rfl⟩ := Prod.mk.inj (Option.some.inj (h.symm.trans hstep))
    exact absurd hstays (Nat.succ_ne_self _)
  · have hmarched := (Option.some.inj (h.symm.trans hstep)).symm
    have hlt : m.bureaucrat < m.tape.length := (List.getElem?_eq_some_iff.mp hrung).1
    -- At the start of the tape the delegate is at the command itself, which has no number.
    have hstart : m.bureaucrat ≠ 0 := by
      intro hzero
      have hdelegate : m.delegate = m.bureaucrat := by omega
      rw [operand?, hdelegate, readAt_of_isMarch hrung hcell hmarch] at hvalue
      cases hvalue
    rw [← hsnapshot] at hlt hmax hstays hstart
    have hzero := (march_stays_iff hlt hmax hstart hmarched).mp hstays
    rw [stride_eq_zero_iff hmarch] at hzero
    exact ⟨value, hvalue, hmoved.resolve_left (not_not_intro hzero)⟩

/-! ## Stalls -/

/-- One of the three commands is to be executed for a number by which it stalls. -/
structure Stalls (m : Machine) (command : Command) : Prop where
  delegate_le : m.delegate ≤ m.bureaucrat
  /-- The greatest offset leads to the end of the tape. -/
  length_le : (m.tape.length : Int) ≤ maxOffset
  isMarch : command.isMarch = true
  rung : ∃ rung, m.tape[m.bureaucrat]? = some rung ∧ rung.cell = .command command
  operand : ∃ value, m.operand? = some value ∧ command.IsStalledBy value

/-- The step takes the machine to where it was. -/
theorem Stalls.step (h : m.Stalls command) (depth : Nat) :
    ∃ m', m.step depth = some (.proceed, m') ∧ m'.toSnapshot = m.toSnapshot ∧
      m'.generator = m.generator ∧ m'.input = m.input := by
  obtain ⟨rung, hrung, hcell⟩ := h.rung
  obtain ⟨value, hvalue, hstalled⟩ := h.operand
  obtain ⟨hrest, -⟩ | ⟨value', m₁, how, hvalue', -, hsnapshot, hinput, hdraw, hstep⟩ :=
    step_march_cases hrung hcell h.isMarch depth
  · exact absurd (.inr hstalled) (hrest value hvalue)
  · obtain rfl := Option.some.inj (hvalue.symm.trans hvalue')
    have hlt : m.bureaucrat < m.tape.length := (List.getElem?_eq_some_iff.mp hrung).1
    have hmax := h.length_le
    have hle := h.delegate_le
    rw [← hsnapshot] at hlt hmax hle
    rw [(stride_eq_zero_iff h.isMarch).mpr hstalled.offset_eq_zero, march_zero how hlt hmax hle]
      at hstep
    exact ⟨_, hstep, hsnapshot, hdraw hstalled.offset_eq_zero, hinput⟩

/-- Whether a command stalls is told by what the step leaves as it was. -/
theorem Stalls.congr (h : m.Stalls command) (hsnapshot : m'.toSnapshot = m.toSnapshot)
    (hgenerator : m'.generator = m.generator) : m'.Stalls command where
  delegate_le := by rw [hsnapshot]; exact h.delegate_le
  length_le := by rw [hsnapshot]; exact h.length_le
  isMarch := h.isMarch
  rung := by rw [hsnapshot]; exact h.rung
  operand := by
    have hoperand : m'.operand? = m.operand? := by
      rw [operand?, operand?, hsnapshot]
      exact readAt_fst_congr (congrArg _ hsnapshot) (congrArg _ hsnapshot) hgenerator _
    rw [hoperand]
    exact h.operand

/-- A loop that comes to a stall has no end. -/
theorem Stalls.loop (h : m.Stalls command) (depth limit : Nat) : loop depth limit m = none := by
  induction limit generalizing m with
  | zero => rfl
  | succ limit ih =>
    obtain ⟨m', hstep, hsnapshot, hgenerator, -⟩ := h.step depth
    rw [Machine.loop, hstep]
    exact ih (h.congr hsnapshot hgenerator)

/-- A run that comes to a stall does not end. -/
theorem run_eq_none_of_stalls {m₁ : Machine} {program : List Rung} {n : Nat}
    (hpoint : m.pointAt program n = .ready m₁) (h : m₁.Stalls command) (fuel : Nat) :
    m.run fuel program = none := by
  cases hrun : m.run fuel program with
  | none => rfl
  | some result =>
    obtain ⟨depth, limit, hloop⟩ := exists_loop_of_run hrun hpoint
    rw [h.loop] at hloop
    cases hloop

/-- The flag is set if and only if there is a number that moves the bureaucrat. -/
theorem moved_dispatch_iff (hmarch : command.isMarch = true) (h : m.moved = false) :
    (m.dispatch command).2.moved = true ↔
      ∃ value, m.operand? = some value ∧ command.IsMovedBy value := by
  have hmarches := m.marches_dispatch hmarch
  generalize m.dispatch command = result at hmarches
  cases hmarches with
  | rest hrest =>
    refine ⟨fun hmoved => ?_, fun ⟨value, hvalue, hmoved⟩ => absurd hmoved (hrest value hvalue)⟩
    rw [h] at hmoved
    cases hmoved
  | @move value hread hmoved _ _ _ how =>
    exact ⟨fun _ => ⟨value, hread, hmoved⟩, fun _ => moved_march _ how _⟩

/-- `Promote`, `Demote` and `Blossom` count as a move of the bureaucrat for a number whose offset
    is not zero, and `Promote` and `Demote` for NaN as well, whose offset is zero.

    For any other number, and without one, a step on them passes them and does nothing else.  A
    step on them after which the run goes on leaves the bureaucrat where it was for NaN and for
    nothing else.  Such a step changes nothing, and a run that comes to it does not end. -/
theorem only_nan_stalls_the_bureaucrat {command : Command} (hmarch : command.isMarch = true) :
    (∀ m : Machine, m.moved = false → ((m.dispatch command).2.moved = true ↔
      ∃ value, m.operand? = some value ∧ command.IsMovedBy value)) ∧
    (∀ (m : Machine) (rung : Rung), m.tape[m.bureaucrat]? = some rung →
      rung.cell = .command command →
      ((∀ value, m.operand? = some value → ¬ command.IsMovedBy value) → ∀ depth, ∃ m',
        m.step depth = some (.proceed, m') ∧
        m'.toSnapshot = { m.toSnapshot with bureaucrat := m.bureaucrat + 1 } ∧
        m'.generator = m.generator ∧ m'.input = m.input) ∧
      (m.delegate ≤ m.bureaucrat → (m.tape.length : Int) ≤ maxOffset → ∀ depth m',
        m.step depth = some (.proceed, m') →
        (m'.bureaucrat = m.bureaucrat ↔ m.Stalls command))) ∧
    (∀ m : Machine, m.Stalls command →
      (∀ depth, ∃ m', m.step depth = some (.proceed, m') ∧ m'.toSnapshot = m.toSnapshot ∧
        m'.generator = m.generator ∧ m'.input = m.input) ∧
      ∀ depth limit, loop depth limit m = none) ∧
    ∀ (m : Machine) (program : List Rung) (n : Nat) (m₁ : Machine),
      m.pointAt program n = .ready m₁ → m₁.Stalls command → ∀ fuel, m.run fuel program = none := by
  refine ⟨fun m hmoved => moved_dispatch_iff hmarch hmoved, fun m rung hrung hcell =>
    ⟨fun hrest depth => ?_, fun hle hmax depth m' hstep => ⟨fun hstays => ?_, fun hstalls => ?_⟩⟩,
    fun m hstalls => ⟨hstalls.step, hstalls.loop⟩,
    fun m program n m₁ hpoint hstalls => run_eq_none_of_stalls hpoint hstalls⟩
  · -- A number that does not move the bureaucrat, or none: the step passes the command.
    obtain ⟨-, hstep⟩ | ⟨value, -, -, hvalue, hmoved, -⟩ :=
      step_march_cases hrung hcell hmarch depth
    · exact ⟨_, hstep, rfl, rfl, rfl⟩
    · exact absurd hmoved (hrest value hvalue)
  · -- The bureaucrat is where it was, so it stalls.
    exact ⟨hle, hmax, hmarch, ⟨rung, hrung, hcell⟩,
      isStalledBy_of_step_stays hrung hcell hmarch hle hmax hstep hstays⟩
  · -- It stalls, so the step leaves the bureaucrat where it was.
    obtain ⟨m₁, hstep₁, hsnapshot, -⟩ := hstalls.step depth
    obtain ⟨-, rfl⟩ := Prod.mk.inj (Option.some.inj (hstep.symm.trans hstep₁))
    rw [hsnapshot]

/-- A program that divides nothing by nothing and promotes by what comes out of it: `promote operate
    fall one fear rise one zero zero`, in the order in which it is executed. -/
def dividingNothing : List Rung :=
  let rung (name : String) (cell : Cell) : Rung :=
    { position := .input 0, name, element := .earth, cell }
  [rung "zero" (.literal 0.0), rung "zero" (.literal 0.0), rung "one" (.literal 1.0),
    rung "rise" (.command .rise), rung "fear" (.command .fear), rung "one" (.literal 1.0),
    rung "fall" (.command .fall), rung "operate" (.command .operate),
    rung "promote" (.command .promote)]

/-- After eight steps the bureaucrat is at `Promote`, and the delegate at NaN. -/
theorem exists_stalls_dividingNothing :
    ∃ m₁, ({ generator := .ofSeed 0 } : Machine).pointAt dividingNothing 16 = .ready m₁ ∧
      m₁.moved = false ∧ m₁.Stalls .promote := by
  refine ⟨_, rfl, by decide +kernel,
    by decide +kernel, by decide +kernel, rfl, ⟨_, rfl, rfl⟩, ?_⟩
  -- The operand is what zero over zero has left in the first rung.
  exact ⟨_, rfl, by decide, by decide +kernel⟩

/-- A zero is passed, and the run that comes to NaN does not end. -/
theorem only_nan_stalls_the_bureaucrat_dividingNothing :
    let passing : Machine :=
      { tape := [dividingNothing[0], dividingNothing[8]], bureaucrat := 1, generator := .ofSeed 0 }
    (∃ m', passing.step 0 = some (.proceed, m') ∧ m'.bureaucrat = 2) ∧
    ∀ fuel, ({ generator := .ofSeed 0 } : Machine).run fuel dividingNothing = none := by
  intro passing
  have hmarch : Command.promote.isMarch = true := rfl
  obtain ⟨-, hstep, -, hruns⟩ := only_nan_stalls_the_bureaucrat hmarch
  obtain ⟨m₁, hpoint, -, hstalls⟩ := exists_stalls_dividingNothing
  refine ⟨?_, hruns _ _ 16 m₁ hpoint hstalls⟩
  have hoperand : passing.operand? = some 0.0 := rfl
  -- The number is zero, and no other.
  have hrest : ∀ value, passing.operand? = some value → ¬ Command.promote.IsMovedBy value := by
    intro value hvalue
    obtain rfl := Option.some.inj (hoperand.symm.trans hvalue)
    rw [isMovedBy_iff_beq_zero (by decide)]
    decide +kernel
  obtain ⟨m', hproceed, hsnapshot, -⟩ :=
    (hstep passing dividingNothing[8] rfl rfl).1 hrest 0
  exact ⟨m', hproceed, congrArg Snapshot.bureaucrat hsnapshot⟩

/-- `Promote` counts as a move by an offset of zero, so that the step leaves everything as it
    was. -/
theorem promote_is_moved_by_nan :
    ∃ m₁ value, ({ generator := .ofSeed 0 } : Machine).pointAt dividingNothing 16 = .ready m₁ ∧
      m₁.operand? = some value ∧ offset value = 0 ∧ m₁.moved = false ∧
      (m₁.dispatch .promote).2.moved = true ∧
      ∀ depth, ∃ m₂, m₁.step depth = some (.proceed, m₂) ∧ m₂.toSnapshot = m₁.toSnapshot := by
  obtain ⟨m₁, hpoint, hmoved, hstalls⟩ := exists_stalls_dividingNothing
  obtain ⟨value, hvalue, hstalled⟩ := hstalls.operand
  refine ⟨m₁, value, hpoint, hvalue, hstalled.offset_eq_zero, hmoved,
    (moved_dispatch_iff hstalls.isMarch hmoved).mpr ⟨value, hvalue, .inr hstalled⟩, fun depth => ?_⟩
  obtain ⟨m₂, hstep, hsnapshot, -⟩ := hstalls.step depth
  exact ⟨m₂, hstep, hsnapshot⟩

end Machine

end Verse
