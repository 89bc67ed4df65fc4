import Verse.Proofs.Machine.Conservation
import Verse.Proofs.Machine.Cursors
import Verse.Proofs.Machine.March
import Verse.Proofs.Machine.Write

/-!
# What a command can touch

Most commands write to the rung at the delegate and to its variable, and to nothing else.  The
others move a cursor, read the input, or write to the variable just before the bureaucrat.

* `march_cases`, `drift_cases`, `like_cases`   what a command that moves a cursor does
* `unheard_dispatch`, `listen_shifts`          only `Listen` reads, and only it moves the rungs
* `confined_dispatch`                          what any other command does not touch
* `commands_have_footprints`                   what each of the twenty commands leaves alone
-/

namespace Verse

/-- The commands that do nothing unless the rung at the delegate has a number. -/
def Command.needsOperand : Command → Bool
  | .promote | .demote | .blossom | .speak | .count | .create | .destroy | .fear | .love
  | .become | .negative | .operate => true
  | _ => false

namespace Machine

variable {m m' : Machine}

/-! ## Commands that move the cursors -/

/-- Moving the bureaucrat leaves the rungs and the variables alone. -/
theorem march_cases (m : Machine) (how : March) (k : Int) :
    (m.march how k).2.tape = m.tape ∧ (m.march how k).2.vars = m.vars := by
  unfold march
  dsimp only
  split
  · exact ⟨rfl, rfl⟩
  · split <;> exact ⟨rfl, rfl⟩

/-- So do the commands that move it. -/
theorem dispatch_of_isMarch (m : Machine) {command : Command} (h : command.isMarch = true) :
    (m.dispatch command).2.tape = m.tape ∧ (m.dispatch command).2.vars = m.vars := by
  have hmarches := m.marches_dispatch h
  generalize m.dispatch command = result at hmarches
  cases hmarches with
  | rest _ => exact ⟨rfl, rfl⟩
  | move _ _ _ journal how => exact march_cases _ how _

/-- Drifting changes the delegate and may leave a remark. -/
theorem drift_cases (m : Machine) (how : Drift) (k : Int) :
    ∃ delegate journal, m.drift how k = { m with delegate, journal } := by
  -- A remark on a negative offset comes first, and touches the journal only.
  have hdrift : ∀ journal, ∃ delegate journal', (
      let m₁ := { m with journal }
      let target := Numeric.saturate (m₁.delegate + k)
      if target < 0 then { m₁.notice (.driftedBelow how) with delegate := 0 }
      else if m₁.bureaucrat < target then
        { m₁.notice (.driftedAbove how) with delegate := m₁.bureaucrat }
      else { m₁ with delegate := target.toNat }) = { m with delegate, journal := journal' } := by
    intro journal
    dsimp only
    split
    · exact ⟨0, _, rfl⟩
    · split
      · exact ⟨m.bureaucrat, _, rfl⟩
      · exact ⟨_, journal, rfl⟩
  rw [drift]
  split
  · exact hdrift _
  · exact hdrift m.journal

/-- What `Rise` and `Fall` do. -/
theorem exists_drift_driftOffset (m : Machine) (how : Drift) (turn : Int → Int) :
    ∃ delegate generator journal, m.driftOffset.2.drift how (turn m.driftOffset.1) =
      { m with delegate, generator, journal } := by
  have hoffset : ∃ generator, m.driftOffset.2 = { m with generator } := by
    by_cases h : m.bureaucrat = 0
    · exact ⟨m.generator, by simp only [driftOffset, h, if_true]⟩
    · simp only [driftOffset, h, if_false]
      exact m.exists_generator_readAt _
  obtain ⟨generator, hgenerator⟩ := hoffset
  obtain ⟨delegate, journal, hdrift⟩ := m.driftOffset.2.drift_cases how (turn m.driftOffset.1)
  exact ⟨delegate, generator, journal, by rw [hdrift, hgenerator]⟩

/-- What `Like` does. -/
theorem like_cases (m : Machine) : m.like = m ∨
    ∃ name value delegate generator, m.bureaucrat ≠ 0 ∧
      m.nameAt? (m.bureaucrat - 1) = some name ∧
      m.like = { m with delegate, generator, vars := m.vars.assign name value none } := by
  unfold like
  split
  · exact .inl rfl
  case isFalse hstart =>
    dsimp only
    split
    · exact .inl rfl
    case h_2 name hname =>
      obtain ⟨rung, hrung, hcell⟩ := nameAt?_eq_some_iff.mp hname
      -- The search gives the number that is written, or a zero is written for want of one.
      obtain ⟨generator, hnone | ⟨index, value, hsome, -⟩⟩ := m.findBelow_cases m.delegate
      · refine .inr ⟨name, 0.0, m.delegate, generator, hstart, hname, ?_⟩
        simp only [hnone, assignAt, hrung, hcell]
      · refine .inr ⟨name, value, index, generator, hstart, hname, ?_⟩
        simp only [hsome, assignAt, hrung, hcell]

/-! ## What only `Listen` does -/

/-- Nothing has been read from the input, and the rungs are in the order in which they were. -/
structure Unheard (m m' : Machine) : Prop where
  labels : m'.tape.map Rung.label = m.tape.map Rung.label
  input : m'.input = m.input
  inputEvents : m'.inputEvents = m.inputEvents
  heardEvents : m'.heardEvents = m.heardEvents

/-- What has not been read twice has not been read. -/
theorem Unheard.trans {m₁ m₂ m₃ : Machine} (h : m₁.Unheard m₂) (h' : m₂.Unheard m₃) :
    m₁.Unheard m₃ :=
  ⟨h'.labels.trans h.labels, h'.input.trans h.input, h'.inputEvents.trans h.inputEvents,
    h'.heardEvents.trans h.heardEvents⟩

/-- Recording anything but a value reads nothing. -/
theorem unheard_record (m : Machine) {event : Event} (h : event.heard? = none) :
    m.Unheard (m.record event) := by
  refine ⟨rfl, rfl, rfl, ?_⟩
  rw [heardEvents_record, h, Option.toList_none, List.append_nil]

/-- An edit reads nothing and moves no rung. -/
theorem Edit.unheard (h : Edit m m') : m.Unheard m' := by
  cases h with
  | record h => exact unheard_record m (heard?_of_isRemark h)
  | change h c => exact ⟨map_label_set h c, rfl, rfl, rfl⟩
  | draw _ | march _ | drift _ | assign _ _ _ _ | advance _ _ => exact ⟨rfl, rfl, rfl, rfl⟩

/-- Neither do edits one after the other. -/
theorem Edits.unheard (h : Edits m m') : m.Unheard m' := by
  induction h with
  | refl => exact ⟨rfl, rfl, rfl, rfl⟩
  | tail _ hedit ih => exact ih.trans hedit.unheard

/-- No other command than `Listen` reads or moves a rung. -/
theorem unheard_dispatch (m : Machine) {command : Command} (hlisten : command ≠ .listen) :
    m.Unheard (m.dispatch command).2 := by
  by_cases hheaven : command = .heaven
  · subst hheaven
    exact ⟨rfl, rfl, rfl, rfl⟩
  · have heffect := m.dispatch_effect hheaven hlisten
    generalize m.dispatch command = result at heffect
    cases heffect with
    | proceed h => exact h.unheard
    | @pushed m' h how =>
      -- A fault is nothing that has been heard.
      have hfail : m'.Unheard (m'.record (.failed (.marchedPast how))) := unheard_record m' rfl
      exact h.unheard.trans ⟨hfail.labels, hfail.input, hfail.inputEvents, hfail.heardEvents⟩

/-- `Listen` keeps the variables and moves the rungs, and the cursors with them. -/
theorem listen_shifts (m : Machine) :
    (∀ i rung, m.tape[i]? = some rung → m.listen.tape[m.shift i]? = some rung) ∧
    m.listen.tape.length = m.tape.length + m.input.read.1.toList.length ∧
    m.listen.vars = m.vars ∧ m.listen.bureaucrat = m.shift m.bureaucrat ∧
    (m.delegate ≠ m.bureaucrat + 1 → m.listen.delegate = m.shift m.delegate) := by
  have hdelegate : m.heeded.delegate = m.delegate := by
    unfold heeded
    split <;> rfl
  obtain ⟨event, hread, hlisten⟩ | ⟨hread, next, hnext, hlisten⟩ | ⟨hread, hlast, hlisten⟩ :=
    m.listen_cases
  · -- A value goes to the front, and everything else one up.
    have hshift : ∀ i, m.shift i = i + 1 := by
      intro i
      rw [shift, hread, Option.isSome_some, if_pos rfl]
    have htape : m.listen.tape = m.heardRung event :: m.tape := by
      rw [hlisten, ← tape_heeded m, ← List.insertIdx_zero]
      rfl
    refine ⟨fun i rung hrung => ?_, ?_, ?_, ?_, fun _ => ?_⟩
    · rw [htape, hshift, List.getElem?_cons_succ, hrung]
    · rw [htape, hread]
      rfl
    · rw [hlisten]
      exact m.vars_heeded
    · rw [hlisten, hshift, ← bureaucrat_heeded m]
      rfl
    · rw [hlisten, hshift, ← hdelegate]
      rfl
  · -- The rung behind the bureaucrat goes to the front.  Those before it go one up, and those
    -- behind it stay.
    have hlt := (List.getElem?_eq_some_iff.mp hnext).1
    -- The rung is taken out first, so it is inserted into what is left.
    have htape : m.listen.tape = next :: m.tape.eraseIdx (m.bureaucrat + 1) := by
      rw [hlisten, ← tape_heeded m, ← List.insertIdx_zero]
      rfl
    have hcursors : m.listen.bureaucrat = m.bureaucrat + 1 ∧ m.listen.delegate =
        (if m.bureaucrat + 1 < m.delegate then m.delegate - 1 else m.delegate) + 1 := by
      rw [hlisten]
      simp only [insert, erase, bureaucrat_heeded, hdelegate, Nat.zero_le, if_true]
      simp
    refine ⟨fun i rung hrung => ?_, ?_, ?_, ?_, fun hne => ?_⟩
    · rw [htape, getElem?_shift_of_fetched hread hnext, hrung]
    · rw [htape, List.length_cons, List.length_eraseIdx_of_lt hlt, hread]
      simp only [Option.toList_none, List.length_nil]
      omega
    · rw [hlisten]
      exact m.vars_heeded
    · rw [hcursors.1, shift, hread, Option.isSome_none, if_neg Bool.false_ne_true,
        if_pos ⟨hlt, Nat.le_succ _⟩, if_neg (by omega)]
    · rw [hcursors.2, shift, hread, Option.isSome_none, if_neg Bool.false_ne_true]
      split <;> split <;> omega
  · -- There is nothing to move.
    have hshift : ∀ i, m.shift i = i := by
      intro i
      rw [shift, hread, Option.isSome_none, if_neg Bool.false_ne_true, if_neg (by omega)]
    rw [hlisten, hread]
    refine ⟨fun i rung hrung => ?_, ?_, m.vars_heeded, ?_, fun _ => ?_⟩
    · rw [hshift, tape_heeded, hrung]
    · rw [tape_heeded]
      rfl
    · rw [hshift, bureaucrat_heeded]
    · rw [hshift, hdelegate]

/-! ## Commands without an operand -/

/-- A command that needs an operand does nothing without one. -/
theorem dispatch_of_operand?_eq_none {command : Command} (hneeds : command.needsOperand = true)
    (h : m.operand? = none) : ∃ notices : List Notice, m.dispatch command =
      (.proceed, { m with journal := notices.map Event.noticed ++ m.journal }) := by
  have hread : m.readAt m.delegate = (none, m) := readAt_eq_of_none h
  cases command with
  | few | many | tomorrow | heaven | rise | fall | listen | like => cases hneeds
  | promote => exact ⟨[], by simp only [dispatch, promote, hread]; rfl⟩
  | demote => exact ⟨[], by simp only [dispatch, demote, hread]; rfl⟩
  | blossom => exact ⟨[], by simp only [dispatch, blossom, hread]; rfl⟩
  | speak => exact ⟨[], by simp only [dispatch, speak, hread]; rfl⟩
  | count => exact ⟨[], by simp only [dispatch, count, hread]; rfl⟩
  | create | destroy | fear | love => exact ⟨[], by simp only [dispatch, advanceOperand, hread]; rfl⟩
  | become => exact ⟨[], by simp only [dispatch, become, hread]; rfl⟩
  | negative => exact ⟨[], by simp only [dispatch, negative, hread]; rfl⟩
  | operate =>
    -- That there is no second operand is remarked on before the first is read.
    by_cases hlast : m.tape.length ≤ m.delegate + 1
    · exact ⟨[.lastOperand], by simp only [dispatch, operate, hlast, if_true]; rfl⟩
    · exact ⟨[], by simp only [dispatch, operate, hlast, if_false, hread]; rfl⟩

/-! ## All commands -/

/-- The variable that a command can write to. -/
def subject? (m : Machine) (command : Command) : Option String :=
  if command = .like then
    if m.bureaucrat = 0 then none else m.nameAt? (m.bureaucrat - 1)
  else m.nameAt? m.delegate

/-- What a command other than `Listen` does not touch. -/
structure Confined (m : Machine) (command : Command) (m' : Machine) : Prop where
  tape : ∀ i, i ≠ m.delegate → m'.tape[i]? = m.tape[i]?
  vars : ∀ name, m.subject? command ≠ some name → m'.vars.get? name = m.vars.get? name
  new : command ≠ .like → ∀ name, m.vars.get? name = none → m'.vars.get? name = none
  bureaucrat : command.isMarch = false → m'.bureaucrat = m.bureaucrat
  delegate : command.isMarch = false → command ∉ [Command.rise, .fall, .like] →
    m'.delegate = m.delegate

/-- The commands that move the bureaucrat touch nothing else. -/
theorem confined_march (m : Machine) {command : Command} (h : command.isMarch = true) :
    m.Confined command (m.dispatch command).2 := by
  obtain ⟨htape, hvars⟩ := m.dispatch_of_isMarch h
  refine ⟨fun i _ => by rw [htape], fun name _ => by rw [hvars], fun _ name hnone => by rwa [hvars],
    fun hmarch => ?_, fun hmarch => ?_⟩ <;> exact absurd h (by simp [hmarch])

/-- The commands that drift touch only the delegate. -/
theorem confined_drift (m : Machine) {command : Command} (how : Drift) (turn : Int → Int)
    (h : command = .rise ∨ command = .fall) :
    m.Confined command (m.driftOffset.2.drift how (turn m.driftOffset.1)) := by
  obtain ⟨delegate, generator, journal, hdrift⟩ := m.exists_drift_driftOffset how turn
  rw [hdrift]
  refine ⟨fun _ _ => rfl, fun _ _ => rfl, fun _ _ hnone => hnone, fun _ => rfl, fun _ hother => ?_⟩
  obtain rfl | rfl := h <;> exact absurd hother (by decide)

/-- `Like` writes to the variable below the bureaucrat, if it names one. -/
theorem confined_like (m : Machine) : m.Confined .like m.like := by
  obtain h | ⟨name, value, delegate, generator, hstart, hname, h⟩ := m.like_cases <;> rw [h]
  · exact ⟨fun _ _ => rfl, fun _ _ => rfl, fun _ _ hnone => hnone, fun _ => rfl, fun _ _ => rfl⟩
  · refine ⟨fun _ _ => rfl, fun other hother => ?_, fun hlike => absurd rfl hlike, fun _ => rfl,
      fun _ hlike => absurd hlike (by decide)⟩
    rw [subject?, if_pos rfl, if_neg hstart, hname] at hother
    exact (m.vars.get?_assign name other value none).trans
      (if_neg fun heq => hother (congrArg some heq))

/-- Every command but `Listen` is confined to what it works on. -/
theorem confined_dispatch (m : Machine) {command : Command} (hlisten : command ≠ .listen) :
    m.Confined command (m.dispatch command).2 := by
  by_cases hmarch : command.isMarch = true
  · exact m.confined_march hmarch
  -- These two drift, and `Like` writes to another variable than the rest.
  by_cases hother : command ∈ [Command.rise, .fall, .like]
  · simp only [List.mem_cons, List.not_mem_nil, or_false] at hother
    obtain rfl | rfl | rfl := hother
    · exact m.confined_drift .rose id (.inl rfl)
    · exact m.confined_drift .fell Numeric.reverse (.inr rfl)
    · exact m.confined_like
  · -- What is left works on the rung at the delegate, or does nothing.
    have hwrites := m.writes_dispatch (Bool.eq_false_iff.mpr hmarch) (by simp_all)
    have hlike : command ≠ .like := fun h => hother (by simp [h])
    have hspares := hwrites.spares
    refine ⟨hspares.tape, fun name hname => hspares.vars name ?_, fun _ => hspares.new,
      fun _ => hspares.bureaucrat, fun _ _ => hspares.delegate⟩
    rwa [subject?, if_neg hlike] at hname

/-- Only commands that move the bureaucrat say whether it has moved. -/
theorem moved_dispatch (m : Machine) {command : Command} (h : command.isMarch = false) :
    (m.dispatch command).2.moved = m.moved := by
  by_cases hprint : command.isPrint = false
  · exact (m.still_dispatch h hprint).moved
  · cases command with
    | speak => exact m.moved_speak
    | count => exact m.moved_count
    | _ => exact absurd rfl hprint

/-- Only the commands that print add to what has been printed. -/
theorem printed_dispatch (m : Machine) {command : Command} (h : command.isPrint = false) :
    (m.dispatch command).2.printed = m.printed := by
  by_cases hmarch : command.isMarch = false
  · exact (m.still_dispatch hmarch h).printed
  · cases command with
    | promote => exact m.printed_promote
    | demote => exact m.printed_demote
    | blossom => exact m.printed_blossom
    | _ => exact absurd rfl hmarch

/-- What each of the twenty commands leaves alone.

    * Only `Listen` changes how many rungs there are or their order, and it shifts the cursors with
      their rungs.  Any other command changes at most the rung at the delegate, but not its position
      or its name.
    * At most one variable changes, and only `Like` makes a new one.
    * Only `Promote`, `Demote` and `Blossom` move the bureaucrat to another rung or raise the flag
      that says so, and only they, `Rise`, `Fall` and `Like` move the delegate to another rung.
    * Only `Speak` and `Count` print, and only `Listen` reads the input.
    * The commands that need a number at the delegate do no more than remark if there is none.

    `Listen` would lose a delegate right behind the bureaucrat, where it never is in a run. -/
theorem commands_have_footprints (m : Machine) (command : Command) :
    let m' := (m.dispatch command).2
    (command ≠ .listen → m'.tape.map Rung.label = m.tape.map Rung.label ∧
      ∀ i, i ≠ m.delegate → m'.tape[i]? = m.tape[i]?) ∧
    (command = .listen → Function.Injective m.shift ∧
      (∀ i rung, m.tape[i]? = some rung → m'.tape[m.shift i]? = some rung) ∧
      m'.tape.length = m.tape.length + m.input.read.1.toList.length ∧ m'.vars = m.vars ∧
      m'.bureaucrat = m.shift m.bureaucrat ∧
      (m.delegate ≠ m.bureaucrat + 1 → m'.delegate = m.shift m.delegate)) ∧
    (∀ name, m.subject? command ≠ some name → m'.vars.get? name = m.vars.get? name) ∧
    (command ≠ .like → ∀ name, m.vars.get? name = none → m'.vars.get? name = none) ∧
    (command.isMarch = false → m'.moved = m.moved ∧
      (command ≠ .listen → m'.bureaucrat = m.bureaucrat ∧
        (command ∉ [Command.rise, .fall, .like] → m'.delegate = m.delegate))) ∧
    (command.isPrint = false → m'.printed = m.printed) ∧
    (command ≠ .listen → m'.input = m.input ∧ m'.inputEvents = m.inputEvents ∧
      m'.heardEvents = m.heardEvents) ∧
    (command.needsOperand = true → m.operand? = none → ∃ notices : List Notice,
      m.dispatch command =
        (.proceed, { m with journal := notices.map Event.noticed ++ m.journal })) ∧
    ∀ (program : List Rung) (n : Nat) (frame : Option Frame) (rung : Rung) (m₁ : Machine),
      (m.pointAt program n).upcoming? = some (frame, rung, m₁) → m₁.delegate ≤ m₁.bureaucrat := by
  intro m'
  -- `Listen` is the one command that `Confined` leaves out.
  have hvars : command = .listen → m'.vars = m.vars := by
    rintro rfl
    exact m.listen_shifts.2.2.1
  refine ⟨fun hlisten => ⟨?labels, ?tape⟩, ?listen, fun name hname => ?vars,
    fun hlike name hname => ?new, fun hmarch => ⟨m.moved_dispatch hmarch, fun hlisten => ?cursors⟩,
    m.printed_dispatch, fun hlisten => ?input,
    fun hneeds hnumber => dispatch_of_operand?_eq_none hneeds hnumber,
    fun program n frame rung m₁ hupcoming => ?order⟩
  case labels => exact (m.unheard_dispatch hlisten).labels
  case tape => exact (m.confined_dispatch hlisten).tape
  case listen =>
    rintro rfl
    obtain ⟨htape, hrest⟩ := m.listen_shifts
    exact ⟨m.shift_injective, htape, hrest⟩
  case vars =>
    by_cases hlisten : command = .listen
    · rw [hvars hlisten]
    · exact (m.confined_dispatch hlisten).vars name hname
  case new =>
    by_cases hlisten : command = .listen
    · rwa [hvars hlisten]
    · exact (m.confined_dispatch hlisten).new hlike name hname
  case cursors =>
    have hconfined := m.confined_dispatch hlisten
    exact ⟨hconfined.bureaucrat hmarch, hconfined.delegate hmarch⟩
  case input =>
    have hunheard := m.unheard_dispatch hlisten
    exact ⟨hunheard.input, hunheard.inputEvents, hunheard.heardEvents⟩
  case order => exact ((m.pointAt_ordered program n).onTape_of_upcoming? hupcoming).delegate_le

end Machine

end Verse
