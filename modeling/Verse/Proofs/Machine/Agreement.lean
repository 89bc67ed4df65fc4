import Verse.Proofs.Machine.Act

/-!
# Two machines that agree

Every command is put together from a few ways of looking at the machine and of changing it.  If
a relation between two machines lets both of them see the same, and is kept by each of the
changes, then it is kept by all commands, and they end the run on the one machine when they end
it on the other.

* `Agreement`              what is asked of the relation
* `Agreement.dispatch`     what it gives for the commands
* `Agreement.act`          and for all rungs
-/

namespace Verse

/-- Whether a remark is made on a rung that cannot be executed, or on elements that no relation
    joins. -/
def Notice.isBaffled : Notice → Bool
  | .invalidCommand _ _ | .unrelated _ _ => true
  | _ => false

/-- Whether an event is such a remark. -/
def Event.isBaffled : Event → Bool
  | .noticed notice => notice.isBaffled
  | _ => false

namespace Machine

/-- Two acts with the same signal that leave related machines. -/
def Agrees (R : Machine → Machine → Prop) (result result' : Signal × Machine) : Prop :=
  result'.1 = result.1 ∧ R result.2 result'.2

/-- A relation between machines that commands cannot break.  Related machines look the same to
    a command, and changed in the same way they are related again.  The changes come with what
    is known when a command makes them. -/
structure Agreement (R : Machine → Machine → Prop) : Prop where
  bureaucrat {m m' : Machine} (h : R m m') : m'.bureaucrat = m.bureaucrat
  delegate {m m' : Machine} (h : R m m') : m'.delegate = m.delegate
  moved {m m' : Machine} (h : R m m') : m'.moved = m.moved
  length {m m' : Machine} (h : R m m') : m'.tape.length = m.tape.length
  elementAt {m m' : Machine} (h : R m m') (index : Nat) : m'.elementAt index = m.elementAt index
  name {m m' : Machine} (h : R m m') (index : Nat) :
    (m'.tape[index]?).bind Rung.variableName? = (m.tape[index]?).bind Rung.variableName?
  readAt {m m' : Machine} (h : R m m') (index : Nat) :
    (m'.readAt index).1 = (m.readAt index).1 ∧ R (m.readAt index).2 (m'.readAt index).2
  record {m m' : Machine} (h : R m m') {event : Event} (hevent : event.isBaffled = false) :
    R (m.record event) (m'.record event)
  /-- `Operate` finds that no relation leads from the one number to the other. -/
  unrelated {m m' : Machine} (h : R m m') {i j : Nat} (hi : (m.readAt i).1.isSome = true)
    (hj : (m.readAt j).1.isSome = true) (hne : m.elementAt i ≠ m.elementAt j)
    (hnone : Relation.between (m.elementAt i) (m.elementAt j) = none) :
    R (m.notice (.unrelated (m.elementAt i) (m.elementAt j)))
      (m'.notice (.unrelated (m.elementAt i) (m.elementAt j)))
  place {m m' : Machine} (h : R m m') (moved : Bool) (bureaucrat delegate : Nat) :
    R { m with moved, bureaucrat, delegate } { m' with moved, bureaucrat, delegate }
  assignAt {m m' : Machine} (h : R m m') (index : Nat) (value : Float) {source : Option Element}
    (hs : m.Brings source) :
    R (m.assignAt index value source) (m'.assignAt index value source)
  advanceAt {m m' : Machine} (h : R m m') {index : Nat} (relation : Relation)
    (hvalue : ∀ rung name, m.tape[index]? = some rung → rung.cell = .variable name →
      (m.vars.value? name).isSome = true) :
    R (m.advanceAt index relation) (m'.advanceAt index relation)
  ascend {m m' : Machine} (h : R m m') {index : Nat} {rung : Rung}
    (hrung : m.tape[index]? = some rung)
    (hcell : (∃ value, rung.cell = .literal value) ∨ ∃ name, rung.cell = .variable name) :
    R (m.modify index toHeaven) (m'.modify index toHeaven)

namespace Agreement

variable {R : Machine → Machine → Prop} (hR : Agreement R) {m m' : Machine}

include hR

/-! ## Looking and moving -/

/-- Moving the cursors. -/
theorem cursors (h : R m m') (bureaucrat delegate : Nat) :
    R { m with bureaucrat, delegate } { m' with bureaucrat, delegate } := by
  -- The relation knows of a change to all three, so the flag is set to what it is.
  have hmoved : ({ m' with bureaucrat, delegate } : Machine) =
      { m' with moved := m.moved, bureaucrat, delegate } := by rw [← hR.moved h]
  rw [hmoved]
  exact hR.place h m.moved bureaucrat delegate

/-- Saying whether the bureaucrat has been moved. -/
theorem setMoved (h : R m m') (moved : Bool) : R { m with moved } { m' with moved } := by
  have hcursors : ({ m' with moved } : Machine) =
      { m' with moved, bureaucrat := m.bureaucrat, delegate := m.delegate } := by
    rw [← hR.bureaucrat h, ← hR.delegate h]
  rw [hcursors]
  exact hR.place h moved m.bureaucrat m.delegate

/-- Moving the bureaucrat. -/
theorem setBureaucrat (h : R m m') (bureaucrat : Nat) :
    R { m with bureaucrat } { m' with bureaucrat } := by
  have hdelegate : ({ m' with bureaucrat } : Machine) =
      { m' with bureaucrat, delegate := m.delegate } := by rw [← hR.delegate h]
  rw [hdelegate]
  exact hR.cursors h bureaucrat m.delegate

/-- Moving the delegate. -/
theorem setDelegate (h : R m m') (delegate : Nat) : R { m with delegate } { m' with delegate } := by
  have hbureaucrat : ({ m' with delegate } : Machine) =
      { m' with bureaucrat := m.bureaucrat, delegate } := by rw [← hR.bureaucrat h]
  rw [hbureaucrat]
  exact hR.cursors h m.bureaucrat delegate

/-- Making a remark that any machine may make. -/
theorem notice (h : R m m') (notice : Notice) (hnotice : notice.isBaffled = false) :
    R (m.notice notice) (m'.notice notice) :=
  hR.record h hnotice

/-- Reading a rung gives both machines the same number. -/
theorem reading (h : R m m') (index : Nat) :
    ∃ value m₁ m₁', m.readAt index = (value, m₁) ∧ m'.readAt index = (value, m₁') ∧ R m₁ m₁' :=
  ⟨(m.readAt index).1, (m.readAt index).2, (m'.readAt index).2, rfl,
    Prod.ext (hR.readAt h index).1 rfl, (hR.readAt h index).2⟩

/-- Giving up: both machines put the cursors at the ends of tapes of the same length. -/
theorem fail (h : R m m') (fault : Fault) : Agrees R (m.fail fault) (m'.fail fault) := by
  refine ⟨rfl, ?_⟩
  rw [Machine.fail, Machine.fail, hR.delegate h, hR.length h]
  exact hR.record (hR.cursors h _ _) rfl

/-- Moving the bureaucrat as far as both tapes go, or off them. -/
theorem march (h : R m m') (how : March) (k : Int) : Agrees R (m.march how k) (m'.march how k) := by
  have hmoved := hR.setMoved h true
  unfold Machine.march
  dsimp only
  rw [hR.bureaucrat h, hR.length h]
  split
  · exact hR.fail hmoved _
  · split
    · -- The remark leaves the cursors alone, so the move can still be made after it.
      have hnotice := hR.notice hmoved (.marchedBelow how) rfl
      refine ⟨rfl, ?_⟩
      dsimp only [Machine.notice, Machine.record] at hnotice ⊢
      rw [hR.delegate h]
      exact hR.cursors hnotice _ _
    · refine ⟨rfl, ?_⟩
      rw [hR.delegate h]
      exact hR.cursors hmoved _ _

/-- Moving the bureaucrat by a number that is not zero, with a remark if it is negative. -/
theorem march_nonzero (h : R m m') (how : March) (value : Float) (k : Int) :
    Agrees R
      (if value == 0.0 then (.proceed, m)
        else (if value < 0.0 then m.notice (.marchedNegative how value) else m).march how k)
      (if value == 0.0 then (.proceed, m')
        else (if value < 0.0 then m'.notice (.marchedNegative how value) else m').march how k) := by
  split
  · exact ⟨rfl, h⟩
  · split
    · exact hR.march (hR.notice h _ rfl) how k
    · exact hR.march h how k

theorem promote (h : R m m') : Agrees R m.promote m'.promote := by
  obtain ⟨value, m₁, m₁', hread, hread', h₁⟩ := hR.reading h m.delegate
  rw [Machine.promote, Machine.promote, hR.delegate h, hread, hread']
  cases value with
  | none => exact ⟨rfl, h₁⟩
  | some value => exact hR.march_nonzero h₁ .promoted value _

theorem demote (h : R m m') : Agrees R m.demote m'.demote := by
  obtain ⟨value, m₁, m₁', hread, hread', h₁⟩ := hR.reading h m.delegate
  rw [Machine.demote, Machine.demote, hR.delegate h, hread, hread']
  cases value with
  | none => exact ⟨rfl, h₁⟩
  | some value => exact hR.march_nonzero h₁ .demoted value _

theorem blossom (h : R m m') : Agrees R m.blossom m'.blossom := by
  obtain ⟨value, m₁, m₁', hread, hread', h₁⟩ := hR.reading h m.delegate
  rw [Machine.blossom, Machine.blossom, hR.delegate h, hread, hread']
  cases value with
  | none => exact ⟨rfl, h₁⟩
  | some value =>
    dsimp only
    split
    · exact ⟨rfl, h₁⟩
    · exact hR.march h₁ .blossomed _

/-- How far the delegate drifts is read below the bureaucrat, or is nothing at the bottom. -/
theorem driftOffset (h : R m m') :
    m'.driftOffset.1 = m.driftOffset.1 ∧ R m.driftOffset.2 m'.driftOffset.2 := by
  rw [Machine.driftOffset, Machine.driftOffset, hR.bureaucrat h]
  by_cases hzero : m.bureaucrat = 0
  · rw [if_pos hzero, if_pos hzero]
    exact ⟨rfl, h⟩
  · obtain ⟨value, m₁, m₁', hread, hread', h₁⟩ := hR.reading h (m.bureaucrat - 1)
    rw [if_neg hzero, if_neg hzero, hread, hread']
    exact ⟨rfl, h₁⟩

/-- Moving the delegate, once it has been remarked on a negative number. -/
theorem drift_target (h : R m m') (how : Drift) (target : Int) :
    R (if target < 0 then { m.notice (.driftedBelow how) with delegate := 0 }
        else if m.bureaucrat < target then
          { m.notice (.driftedAbove how) with delegate := m.bureaucrat }
        else { m with delegate := target.toNat })
      (if target < 0 then { m'.notice (.driftedBelow how) with delegate := 0 }
        else if m'.bureaucrat < target then
          { m'.notice (.driftedAbove how) with delegate := m'.bureaucrat }
        else { m' with delegate := target.toNat }) := by
  rw [hR.bureaucrat h]
  split
  · exact hR.setDelegate (hR.notice h (.driftedBelow how) rfl) 0
  · split
    · exact hR.setDelegate (hR.notice h (.driftedAbove how) rfl) m.bureaucrat
    · exact hR.cursors h m.bureaucrat target.toNat

/-- The delegate drifts to the same rung on both machines. -/
theorem drift (h : R m m') (how : Drift) (k : Int) : R (m.drift how k) (m'.drift how k) := by
  unfold Machine.drift
  dsimp only
  -- Where the delegate goes does not depend on whether there was a remark before.
  split
  · have hnotice := hR.notice h (.driftedNegative how k) rfl
    rw [hR.delegate hnotice]
    exact hR.drift_target hnotice how _
  · rw [hR.delegate h]
    exact hR.drift_target h how _

theorem rise (h : R m m') : R m.rise m'.rise := by
  obtain ⟨hk, hafter⟩ := hR.driftOffset h
  rw [Machine.rise, Machine.rise]
  dsimp only
  rw [hk]
  exact hR.drift hafter .rose _

theorem fall (h : R m m') : R m.fall m'.fall := by
  obtain ⟨hk, hafter⟩ := hR.driftOffset h
  rw [Machine.fall, Machine.fall]
  dsimp only
  rw [hk]
  exact hR.drift hafter .fell _

/-! ## Output and values -/

theorem speak (h : R m m') : R m.speak m'.speak := by
  obtain ⟨value, m₁, m₁', hread, hread', h₁⟩ := hR.reading h m.delegate
  rw [Machine.speak, Machine.speak, hR.delegate h, hread, hread']
  cases value with
  | none => exact h₁
  | some value =>
    dsimp only
    split
    · exact hR.record h₁ rfl
    · exact hR.notice h₁ _ rfl

theorem count (h : R m m') : R m.count m'.count := by
  obtain ⟨value, m₁, m₁', hread, hread', h₁⟩ := hR.reading h m.delegate
  rw [Machine.count, Machine.count, hR.delegate h, hread, hread']
  cases value with
  | none => exact h₁
  | some value => exact hR.record h₁ rfl

/-- The four commands that advance the operand by a relation. -/
theorem advanceOperand (h : R m m') (relation : Relation) :
    R (m.advanceOperand relation) (m'.advanceOperand relation) := by
  obtain ⟨value, m₁, m₁', hread, hread', h₁⟩ := hR.reading h m.delegate
  rw [Machine.advanceOperand, Machine.advanceOperand, hR.delegate h, hread, hread']
  cases value with
  | none => exact h₁
  | some value =>
    -- What has been read has changed no more than the generator, so a variable still has its
    -- number.
    obtain ⟨generator, hdraw⟩ := m.exists_generator_readAt m.delegate
    rw [hread] at hdraw
    dsimp only
    rw [hR.delegate h₁]
    refine hR.advanceAt h₁ relation fun rung name hrung hname => ?_
    obtain rfl : m₁ = { m with generator } := hdraw
    exact isSome_value?_of_readAt hread hrung hname

/-- Writing a number that brings no element along. -/
theorem assignAt_none (h : R m m') (index : Nat) (value : Float) :
    R (m.assignAt index value none) (m'.assignAt index value none) :=
  hR.assignAt h index value (by simp [Brings])

/-- A variable that grows takes the number and then advances. -/
theorem grow (h : R m m') {index : Nat} {rung : Rung} {name : String}
    (hrung : m.tape[index]? = some rung) (hname : rung.cell = .variable name) (value : Float) :
    R ((m.assignAt index value none).advanceAt index .create)
      ((m'.assignAt index value none).advanceAt index .create) :=
  hR.advanceAt (hR.assignAt_none h index value) .create
    (isSome_value?_assignAt hrung hname value none)

theorem become (h : R m m') : R m.become m'.become := by
  obtain ⟨value, m₁, m₁', hread, hread', h₁⟩ := hR.reading h m.delegate
  rw [Machine.become, Machine.become, hR.delegate h, hread, hread']
  cases value with
  | none => exact h₁
  | some value =>
    obtain ⟨generator, hdraw⟩ := m.exists_generator_readAt m.delegate
    rw [hread] at hdraw
    dsimp only
    split
    case isTrue hzero =>
      -- A number that is drawn is never zero, so the rung is a literal or a variable.
      obtain rfl : m₁ = { m with generator } := hdraw
      obtain ⟨rung, hrung, hcell⟩ := cell_of_readAt_zero (congrArg Prod.fst hread) hzero
      exact hR.ascend h₁ hrung hcell
    case isFalse =>
      rw [hR.name h₁]
      split
      case h_1 name hname =>
        obtain ⟨rung, hrung, hname⟩ := Option.bind_eq_some_iff.mp hname
        exact hR.grow h₁ hrung (Rung.variableName?_eq_some hname) _
      case h_2 => exact hR.assignAt_none h₁ _ _

/-- The search below the delegate ends at the same rung on both machines. -/
theorem findBelow (h : R m m') (index : Nat) :
    (m'.findBelow index).1 = (m.findBelow index).1 ∧
      R (m.findBelow index).2 (m'.findBelow index).2 := by
  induction index generalizing m m' with
  | zero =>
    obtain ⟨value, m₁, m₁', hread, hread', h₁⟩ := hR.reading h 0
    rw [Machine.findBelow, Machine.findBelow, hread, hread']
    cases value <;> exact ⟨rfl, h₁⟩
  | succ index ih =>
    obtain ⟨value, m₁, m₁', hread, hread', h₁⟩ := hR.reading h (index + 1)
    rw [Machine.findBelow, Machine.findBelow, hread, hread']
    cases value with
    | none => exact ih h₁
    | some value => exact ⟨rfl, h₁⟩

theorem like (h : R m m') : R m.like m'.like := by
  unfold Machine.like
  dsimp only
  rw [hR.bureaucrat h, hR.delegate h, hR.name h]
  split
  · exact h
  · split
    · exact h
    · -- The search draws numbers on its way, and finds the same one on both machines.
      obtain ⟨hfound, hafter⟩ := hR.findBelow h m.delegate
      obtain ⟨⟨found, m₁⟩, hm⟩ : ∃ result, m.findBelow m.delegate = result := ⟨_, rfl⟩
      obtain ⟨⟨found', m₁'⟩, hm'⟩ : ∃ result, m'.findBelow m.delegate = result := ⟨_, rfl⟩
      rw [hm, hm'] at hfound hafter
      rw [hm, hm']
      obtain rfl : found' = found := hfound
      cases found' with
      | none => exact hR.assignAt_none hafter _ _
      | some place => exact hR.assignAt_none (hR.setDelegate hafter _) _ _

theorem negative (h : R m m') : R m.negative m'.negative := by
  obtain ⟨value, m₁, m₁', hread, hread', h₁⟩ := hR.reading h m.delegate
  rw [Machine.negative, Machine.negative, hR.delegate h, hread, hread']
  cases value with
  | none => exact h₁
  | some value =>
    dsimp only
    rw [hR.delegate h₁]
    exact hR.assignAt_none h₁ _ _

theorem operate (h : R m m') : R m.operate m'.operate := by
  unfold Machine.operate
  dsimp only
  rw [hR.length h, hR.delegate h]
  split
  · -- There is no second operand.
    exact hR.notice h _ rfl
  · obtain ⟨valueB, m₁, m₁', hreadB, hreadB', h₁⟩ := hR.reading h m.delegate
    rw [hreadB, hreadB']
    cases valueB with
    | none => exact h₁
    | some b =>
      obtain ⟨valueA, m₂, m₂', hreadA, hreadA', h₂⟩ := hR.reading h₁ (m.delegate + 1)
      dsimp only
      rw [hreadA, hreadA']
      cases valueA with
      | none => exact h₂
      | some a =>
        -- Both numbers can still be read, after no more than draws.
        have hB : (m₂.readAt m.delegate).1.isSome = true := by
          rw [isSome_readAt_of_readAt hreadA, isSome_readAt_of_readAt hreadB, hreadB]
          rfl
        have hA : (m₂.readAt (m.delegate + 1)).1.isSome = true := by
          rw [isSome_readAt_of_readAt hreadA, hreadA]
          rfl
        have hbrings : m₂.Brings (some (m₂.elementAt (m.delegate + 1))) :=
          fun element helement => ⟨m.delegate + 1, hA, Option.some.inj helement⟩
        dsimp only
        rw [hR.elementAt h₂, hR.elementAt h₂]
        split
        case isTrue => exact hR.assignAt_none h₂ _ _
        case isFalse hne =>
          -- Only a sum brings the element of the other number along.
          split
          · exact hR.assignAt h₂ _ _ hbrings
          · exact hR.assignAt_none h₂ _ _
          · exact hR.assignAt_none h₂ _ _
          · exact hR.assignAt_none h₂ _ _
          case h_5 hnone => exact hR.unrelated h₂ hB hA hne hnone

/-! ## All rungs -/

/-- Every command but `Listen` leaves related machines related. -/
theorem dispatch (h : R m m') {command : Command}
    (hlisten : command = .listen → R m.listen m'.listen) :
    Agrees R (m.dispatch command) (m'.dispatch command) := by
  cases command with
  | few | many | tomorrow | heaven => exact ⟨rfl, h⟩
  | listen => exact ⟨rfl, hlisten rfl⟩
  | promote => exact hR.promote h
  | demote => exact hR.demote h
  | blossom => exact hR.blossom h
  | rise => exact ⟨rfl, hR.rise h⟩
  | fall => exact ⟨rfl, hR.fall h⟩
  | speak => exact ⟨rfl, hR.speak h⟩
  | count => exact ⟨rfl, hR.count h⟩
  | create => exact ⟨rfl, hR.advanceOperand h .create⟩
  | destroy => exact ⟨rfl, hR.advanceOperand h .destroy⟩
  | fear => exact ⟨rfl, hR.advanceOperand h .fear⟩
  | love => exact ⟨rfl, hR.advanceOperand h .love⟩
  | become => exact ⟨rfl, hR.become h⟩
  | like => exact ⟨rfl, hR.like h⟩
  | negative => exact ⟨rfl, hR.negative h⟩
  | operate => exact ⟨rfl, hR.operate h⟩

/-- What two rungs with one cell do by themselves, on related machines.  Rungs that do more than
    the relation knows of are up to the relation. -/
theorem act (h : R m m') {rung rung' : Rung} (hcell : rung'.cell = rung.cell)
    (hlisten : rung.cell = .command .listen → R m.listen m'.listen)
    (hinvalid : ∀ code, rung.cell = .invalid code →
      R (m.notice (.invalidCommand rung.name code)) (m'.notice (.invalidCommand rung'.name code)))
    (hcapture : rung.cell = .punctuation → Agrees R m.capture m'.capture) :
    Agrees R (m.act rung) (m'.act rung') := by
  rw [Machine.act, Machine.act, hcell]
  cases hkind : rung.cell with
  | command command => exact hR.dispatch h fun hcommand => hlisten (by rw [hkind, hcommand])
  | invalid code => exact ⟨rfl, hinvalid code hkind⟩
  | «variable» _ | literal _ => exact ⟨rfl, h⟩
  | punctuation => exact hcapture hkind

end Agreement

end Machine

end Verse
