import Verse.Proofs.Machine.Footprint
import Verse.Proofs.Machine.Grounded

/-!
# What `Operate` makes of two numbers

`Operate` reads the number at the delegate and then the one after it, `b` and `a`.  Their elements
choose the number that takes the place of the first: two equal elements combine polarities, and of
two distinct ones the relation that leads from the first to the second is an operation on `a` and
`b`.  Nothing is written but to the rung at the delegate, or to its variable.

* `Yields`                     the number, and the element of a variable that takes it
* `operate_of_yields`          it is assigned to the rung at the delegate
* `endowed_pointAt`            a variable that has a number has an element throughout a run
* `operate_is_exact`           everything that `Operate` does
-/

namespace Verse

/-! ## Elements and relations -/

namespace Relation

variable {elementB elementA : Element} {relation : Relation}

/-- The relation that leads from one element to another is the one that is found between them. -/
theorem between_eq_some (hne : elementB ≠ elementA) (h : relation.successor elementB = elementA) :
    between elementB elementA = some relation := by
  subst h
  cases relation <;> cases elementB <;> first | rfl | exact absurd rfl hne

/-- What is found between two elements leads from the one to the other. -/
theorem successor_of_between (h : between elementB elementA = some relation) :
    relation.successor elementB = elementA := by
  rw [between] at h
  have hfollows : relation.follows elementB elementA = true :=
    List.find?_some (p := fun relation : Relation => relation.follows elementB elementA) h
  rw [follows, Bool.and_eq_true] at hfollows
  exact eq_of_beq hfollows.2

/-- What is related to another element is not the void. -/
theorem ne_void_of_successor (hne : elementB ≠ elementA)
    (h : relation.successor elementB = elementA) : elementB ≠ .void := by
  rintro rfl
  refine hne ?_
  rw [← h]
  cases relation <;> rfl

/-- Of two distinct elements, exactly one relation leads from the one to the other. -/
theorem existsUnique_successor (hB : elementB ∈ Element.cycle) (hA : elementA ∈ Element.cycle)
    (hne : elementB ≠ elementA) : ∃! relation : Relation, relation.successor elementB = elementA := by
  obtain ⟨relation, hrelation⟩ := Option.ne_none_iff_exists'.mp (between_ne_none hB hA hne)
  refine ⟨relation, successor_of_between hrelation, fun other hother => ?_⟩
  exact Option.some.inj ((between_eq_some hne hother).symm.trans hrelation)

end Relation

/-- Two polarities are joined into a one if both numbers are odd. -/
theorem Polarity.value_both (a b : Float) :
    ((Polarity.of a).both (Polarity.of b)).value =
      if Numeric.isOdd b = true ∧ Numeric.isOdd a = true then 1.0 else 0.0 := by
  rw [Polarity.of, Polarity.of]
  cases Numeric.isOdd a <;> cases Numeric.isOdd b <;> rfl

namespace Machine

/-- What the numbers `b` and `a` yield, for the elements that they have: a number, and the element
    of a variable that takes it. -/
inductive Yields (elementB elementA : Element) (b a : Float) : Float → Element → Prop
  | alike (h : elementB = elementA) : Yields elementB elementA b a
      (if Numeric.isOdd b = true ∧ Numeric.isOdd a = true then 1.0 else 0.0)
      (if elementB = .void then .earth else elementB)
  | create (hne : elementB ≠ elementA) (h : Relation.create.successor elementB = elementA) :
      Yields elementB elementA b a (a + b) elementA
  | destroy (hne : elementB ≠ elementA) (h : Relation.destroy.successor elementB = elementA) :
      Yields elementB elementA b a (a - b) elementB
  | fear (hne : elementB ≠ elementA) (h : Relation.fear.successor elementB = elementA) :
      Yields elementB elementA b a (a / b) elementB
  | love (hne : elementB ≠ elementA) (h : Relation.love.successor elementB = elementA) :
      Yields elementB elementA b a (a * b) elementB

/-- The number at the delegate is read as `b`, and then the one after it as `a`. -/
def ReadsOperands (m : Machine) (b a : Float) (generator : Generator) : Prop :=
  ∃ m₁, m.readAt m.delegate = (some b, m₁) ∧
    m₁.readAt (m.delegate + 1) = (some a, { m with generator })

variable {m m' : Machine} {b a value : Float} {element : Element} {generator : Generator}

/-! ## Reading the operands -/

/-- If two numbers have been read, there is a rung behind the delegate. -/
theorem ReadsOperands.length_lt (h : m.ReadsOperands b a generator) :
    ¬ m.tape.length ≤ m.delegate + 1 := by
  obtain ⟨m₁, hreadB, hreadA⟩ := h
  obtain ⟨generator₁, hdraw⟩ := m.exists_generator_readAt m.delegate
  rw [hreadB] at hdraw
  obtain ⟨rung, hrung, -⟩ := readAt_eq_some (congrArg Prod.fst hreadA)
  rw [show m₁.tape = m.tape by rw [show m₁ = _ from hdraw]] at hrung
  exact Nat.not_le.mpr (List.getElem?_eq_some_iff.mp hrung).1

/-- Two rungs that have numbers are read. -/
theorem exists_readsOperands (hB : (m.readAt m.delegate).1 ≠ none)
    (hA : (m.readAt (m.delegate + 1)).1 ≠ none) : ∃ b a generator, m.ReadsOperands b a generator := by
  obtain ⟨b, hb⟩ := Option.ne_none_iff_exists'.mp hB
  obtain ⟨m₁, hm₁⟩ : ∃ m₁, m₁ = (m.readAt m.delegate).2 := ⟨_, rfl⟩
  have hreadB : m.readAt m.delegate = (some b, m₁) := Prod.ext hb hm₁.symm
  -- The draw of the one number does not take the other away.
  have hsome : (m₁.readAt (m.delegate + 1)).1.isSome = true := by
    rw [isSome_readAt_of_readAt hreadB]
    exact Option.isSome_iff_ne_none.mpr hA
  obtain ⟨a, ha⟩ := Option.isSome_iff_exists.mp hsome
  obtain ⟨generator₁, hdraw⟩ := m.exists_generator_readAt m.delegate
  obtain ⟨generator, hdraw'⟩ := m₁.exists_generator_readAt (m.delegate + 1)
  refine ⟨b, a, generator, m₁, hreadB, Prod.ext ha ?_⟩
  rw [hdraw', hm₁, hdraw]

/-- Without two numbers nothing happens but that one may be drawn. -/
theorem operate_of_none
    (h : (m.readAt m.delegate).1 = none ∨ (m.readAt (m.delegate + 1)).1 = none) :
    m.operate = m.notice .lastOperand ∨ ∃ generator, m.operate = { m with generator } := by
  unfold operate
  dsimp only
  split
  · exact .inl rfl
  · refine .inr ?_
    obtain ⟨generator, hreadB | ⟨b, rung, hreadB, -⟩⟩ := m.readAt_cases m.delegate
    · -- The first has no number, and the second is not looked at.
      exact ⟨generator, by rw [hreadB]⟩
    · have hA : (readAt { m with generator } (m.delegate + 1)).1 = none := by
        rw [hreadB] at h
        have hsome := isSome_readAt_of_readAt hreadB (m.delegate + 1)
        rw [h.resolve_left (by simp)] at hsome
        exact Option.not_isSome_iff_eq_none.mp (by rw [hsome]; simp)
      exact ⟨generator, by rw [hreadB]; dsimp only; rw [readAt_eq_of_none hA]⟩

/-! ## The assignment -/

/-- What the two numbers yield is assigned to the first, with the element that the variable takes.
    -/
theorem operate_of_yields (h : m.ReadsOperands b a generator)
    (hyields : Yields (m.elementAt m.delegate) (m.elementAt (m.delegate + 1)) b a value element) :
    ∃ source, m.operate = assignAt { m with generator } m.delegate value source ∧
      element = if m.elementAt m.delegate = .void then .earth
        else source.getD (m.elementAt m.delegate) := by
  have hlength := h.length_lt
  obtain ⟨m₁, hreadB, hreadA⟩ := h
  -- Neither the tape nor the variables have changed by the time the elements are looked at.
  have helement : ∀ i, elementAt { m with generator } i = m.elementAt i := fun _ => rfl
  rw [operate, if_neg hlength, hreadB]
  dsimp only
  rw [hreadA]
  dsimp only
  simp only [helement]
  cases hyields with
  | alike halike =>
    rw [if_pos halike, Polarity.value_both]
    exact ⟨none, rfl, rfl⟩
  -- Only a sum brings an element along.
  | create hne hsuccessor =>
    rw [if_neg hne, Relation.between_eq_some hne hsuccessor]
    exact ⟨_, rfl, (if_neg (Relation.ne_void_of_successor hne hsuccessor)).symm⟩
  | destroy hne hsuccessor | fear hne hsuccessor | love hne hsuccessor =>
    rw [if_neg hne, Relation.between_eq_some hne hsuccessor]
    exact ⟨none, rfl, (if_neg (Relation.ne_void_of_successor hne hsuccessor)).symm⟩

/-- Nothing joins a void element to another, and a remark says so. -/
theorem operate_of_void (h : m.ReadsOperands b a generator)
    (hne : m.elementAt m.delegate ≠ m.elementAt (m.delegate + 1))
    (hvoid : m.elementAt m.delegate = .void ∨ m.elementAt (m.delegate + 1) = .void) :
    m.operate = { m with generator }.notice
      (.unrelated (m.elementAt m.delegate) (m.elementAt (m.delegate + 1))) := by
  have hlength := h.length_lt
  obtain ⟨m₁, hreadB, hreadA⟩ := h
  have helement : ∀ i, elementAt { m with generator } i = m.elementAt i := fun _ => rfl
  rw [operate, if_neg hlength, hreadB]
  dsimp only
  rw [hreadA]
  dsimp only
  simp only [helement]
  rw [if_neg hne, Relation.between_void hvoid]

/-- The element of a variable that has a number is the variable's own. -/
theorem elementAt_of_value? {index : Nat} {rung : Rung} {name : String}
    (hrung : m.tape[index]? = some rung) (hcell : rung.cell = .variable name)
    (hnumber : (m.vars.value? name).isSome = true) :
    m.elementAt index = m.vars.elementOf name := by
  have hname : rung.variableName? = some name := by rw [Rung.variableName?, hcell]
  rw [elementAt, hrung]
  dsimp only
  rw [hname, Option.bind_some, Variables.elementOf]
  cases hv : m.vars.get? name with
  | none =>
    rw [Variables.value?, hv] at hnumber
    cases hnumber
  | some v => rfl

/-! ## Elements of variables -/

/-- Every variable that has a number has an element. -/
def Endowed (m : Machine) : Prop :=
  ∀ name, (m.vars.value? name).isSome = true → m.vars.elementOf name ≠ .void

/-- Assigning a number gives its variable an element, unless it brings the void along. -/
theorem Endowed.assign (h : m.Endowed) (name : String) (value : Float) {source : Option Element}
    (hs : source ≠ some .void) : Endowed { m with vars := m.vars.assign name value source } := by
  intro other hnumber
  rw [Variables.elementOf_assign]
  by_cases hname : name = other
  · rw [if_pos hname]
    split
    · simp
    case isFalse hvoid =>
      cases source with
      | none => exact hvoid
      | some element => exact fun h => hs (congrArg some h)
  · rw [if_neg hname]
    refine h other ?_
    rwa [Variables.value?, Variables.get?_assign, if_neg hname] at hnumber

/-- A write keeps every variable endowed. -/
theorem Endowed.write {index : Nat} (h : m.Endowed) (hwrite : Write index m m') : m'.Endowed := by
  cases hwrite with
  | record _ | draw _ | change _ _ => exact h
  | assign _ _ value hs => exact h.assign _ value hs
  | @advance name _ _ relation =>
    intro other hnumber
    have hnumber' : (m.vars.value? other).isSome = true := by
      obtain ⟨number, hnumber⟩ := Option.isSome_iff_exists.mp hnumber
      rw [Variables.value?_eq_some_iff, Variables.binding?_advance,
        ← Variables.value?_eq_some_iff] at hnumber
      rw [hnumber, Option.isSome_some]
    have hmem := Element.mem_cycle_iff.mpr (h other hnumber')
    -- An element of the cycle advances to one of the cycle.
    obtain heq | heq := Variables.elementOf_advance m.vars name other relation <;> rw [heq]
    · exact h other hnumber'
    · exact Element.mem_cycle_iff.mp (Element.advance_mem_cycle hmem relation)

/-- Writes one after the other do so too. -/
theorem Endowed.writes {index : Nat} (h : m.Endowed) (hwrites : Writes index m m') : m'.Endowed := by
  induction hwrites with
  | refl => exact h
  | tail _ hwrite ih => exact ih.write hwrite

/-- Nothing but the variables matters. -/
theorem Endowed.of_vars_eq (h : m.Endowed) (hvars : m'.vars = m.vars) : m'.Endowed := by
  intro name hnumber
  rw [hvars] at hnumber ⊢
  exact h name hnumber

/-- Every command keeps every variable endowed. -/
theorem Endowed.dispatch (h : m.Endowed) (command : Command) : (m.dispatch command).2.Endowed := by
  by_cases hmarch : command.isMarch = true
  · exact h.of_vars_eq (m.dispatch_of_isMarch hmarch).2
  by_cases hother : command ∈ [Command.rise, .fall, .like, .listen]
  · simp only [List.mem_cons, List.not_mem_nil, or_false] at hother
    obtain rfl | rfl | rfl | rfl := hother
    · obtain ⟨delegate, generator, journal, hrise⟩ := m.exists_drift_driftOffset .rose id
      exact h.of_vars_eq (congrArg (fun m' => m'.vars) hrise)
    · obtain ⟨delegate, generator, journal, hfall⟩ :=
        m.exists_drift_driftOffset .fell Numeric.reverse
      exact h.of_vars_eq (congrArg (fun m' => m'.vars) hfall)
    · show m.like.Endowed
      obtain hlike | ⟨name, value, delegate, generator, -, -, hlike⟩ := m.like_cases <;> rw [hlike]
      · exact h
      · exact h.assign name value (by simp)
    · exact h.of_vars_eq m.listen_shifts.2.2.1
  · -- Whatever else writes to a variable brings along no void.
    exact h.writes (m.writes_dispatch (Bool.eq_false_iff.mpr hmarch) hother)

/-- A block that is captured takes the number of its variable away. -/
theorem Endowed.capture (h : m.Endowed) : m.capture.2.Endowed := by
  obtain ⟨-, hcapture⟩ | ⟨name, last, -, hcapture⟩ | ⟨name, -, -, hcapture⟩ := m.capture_cases <;>
    rw [hcapture]
  · exact h.of_vars_eq rfl
  · unfold captured
    split
    case h_1 target _ =>
      intro other hnumber
      by_cases hname : target = other
      · rw [Variables.value?, Variables.get?_bind, if_pos hname] at hnumber
        cases hnumber
      · rw [Variables.elementOf_bind _ _ _ _ _ hname]
        refine h other ?_
        rwa [Variables.value?, Variables.get?_bind, if_neg hname] at hnumber
    case h_2 => exact h.of_vars_eq rfl
  · exact h.of_vars_eq rfl

/-- So does every rung by itself. -/
theorem Endowed.act (h : m.Endowed) (rung : Rung) : (m.act rung).2.Endowed := by
  unfold Machine.act
  split
  case h_1 | h_2 => exact h
  case h_3 command _ => exact h.dispatch command
  case h_4 => exact h.of_vars_eq rfl
  case h_5 => exact h.capture

/-- At every point of every run, a variable that has a number has an element. -/
theorem endowed_pointAt (m : Machine) (program : List Rung) (n : Nat) :
    (m.pointAt program n).machine.Endowed := by
  induction n with
  | zero =>
    -- There are no variables at the start.
    intro name hnumber
    rw [show (m.pointAt program 0).machine.vars = .empty from rfl, Variables.value?,
      Variables.get?_empty] at hnumber
    cases hnumber
  | succ n ih =>
    rw [pointAt_succ]
    obtain ⟨-, _, hnext⟩ | ⟨calls, frame, rung, moved, -, hnext⟩ :=
      (m.pointAt program n).next_cases
    · rw [hnext]
      exact ih
    · rw [hnext, Point.enter, Point.machine_settle]
      exact Endowed.act (m := { (m.pointAt program n).machine with moved }.begin frame rung) ih rung

/-! ## All of it -/

/-- What `Operate` writes for the number and the element that the two operands yield: a variable
    takes both, a literal takes the number, and a rung that draws its number stays as it is. -/
theorem operate_writes (h : m.ReadsOperands b a generator)
    (hyields : Yields (m.elementAt m.delegate) (m.elementAt (m.delegate + 1)) b a value element)
    {rung : Rung} (hrung : m.tape[m.delegate]? = some rung) :
    (∀ name, rung.cell = .variable name → ∃ vars : Variables,
      (∀ other, vars.get? other =
        if name = other then some { element, binding := .value value } else m.vars.get? other) ∧
      m.operate = { m with generator, vars }) ∧
    (∀ old, rung.cell = .literal old → m.operate = { m with
      generator, tape := m.tape.set m.delegate { rung with cell := .literal value } }) ∧
    (∀ command, rung.cell = .command command → m.operate = { m with generator }) := by
  obtain ⟨source, hoperate, helement⟩ := operate_of_yields h hyields
  rw [hoperate, assignAt, show ({ m with generator } : Machine).tape = m.tape from rfl, hrung]
  dsimp only
  refine ⟨fun name hcell => ?_, fun old hcell => ?_, fun command hcell => ?_⟩ <;> rw [hcell]
  · -- The element of the operand is the variable's, as it has a number.
    obtain ⟨m₁, hreadB, -⟩ := h
    have hnumber := isSome_value?_of_readAt hreadB hrung hcell
    rw [elementAt_of_value? hrung hcell hnumber] at helement
    refine ⟨_, fun other => ?_, rfl⟩
    rw [Variables.get?_assign, Variables.storing, ← helement]
  · dsimp only
    rw [modify_eq_set (m := { m with generator }) hrung, setLiteral, hcell]

/-- What `Operate` does, for every tape, delegate and pair of operands.

    Without two numbers it does no more than remark or draw.  Otherwise it reads `b` at the delegate
    and then `a` behind it, and their elements decide what the two yield: if the elements are alike,
    one if both numbers are odd and else zero, and if one is the successor of the other, `a + b`,
    `a - b`, `a / b` or `a * b`, for just one of the four relations.  A variable at the delegate takes
    the number, and the element of `a` if it is created, or else keeps its own.  A literal takes the
    number alone.  Nothing else changes.

    A void element is related to nothing, and a variable that has a number never has one in a run. -/
theorem operate_is_exact (m : Machine) :
    ((m.readAt m.delegate).1 = none ∨ (m.readAt (m.delegate + 1)).1 = none →
      ∃ m', m.dispatch .operate = (.proceed, m') ∧ m'.toSnapshot = m.toSnapshot ∧
        m'.moved = m.moved ∧ m'.printed = m.printed ∧ m'.input = m.input) ∧
    ((m.readAt m.delegate).1 ≠ none → (m.readAt (m.delegate + 1)).1 ≠ none →
      ∃ b a generator, m.ReadsOperands b a generator) ∧
    (∀ b a generator, m.ReadsOperands b a generator →
      let elementB := m.elementAt m.delegate
      let elementA := m.elementAt (m.delegate + 1)
      (∀ value element, Yields elementB elementA b a value element →
        ∀ rung, m.tape[m.delegate]? = some rung →
          (∀ name, rung.cell = .variable name → ∃ vars : Variables,
            (∀ other, vars.get? other = if name = other then
              some { element, binding := .value value } else m.vars.get? other) ∧
            m.dispatch .operate = (.proceed, { m with generator, vars })) ∧
          (∀ old, rung.cell = .literal old → m.dispatch .operate = (.proceed, { m with
            generator, tape := m.tape.set m.delegate { rung with cell := .literal value } })) ∧
          (∀ command, rung.cell = .command command →
            m.dispatch .operate = (.proceed, { m with generator }))) ∧
      (elementB ∈ Element.cycle → elementA ∈ Element.cycle → elementB ≠ elementA →
        ∃! relation : Relation, relation.successor elementB = elementA) ∧
      (elementB ≠ elementA → elementB = .void ∨ elementA = .void →
        m.dispatch .operate =
          (.proceed, { m with generator }.notice (.unrelated elementB elementA)))) ∧
    ∀ (program : List Rung) (n : Nat) (name : String),
      ((m.pointAt program n).machine.vars.value? name).isSome = true →
        (m.pointAt program n).machine.vars.elementOf name ≠ .void := by
  have hdispatch : ∀ {m'}, m.operate = m' → m.dispatch .operate = (.proceed, m') := by
    rintro m' rfl
    rfl
  refine ⟨fun hnone => ?_, exists_readsOperands, fun b a generator hreads => ⟨?_, ?_, ?_⟩,
    m.endowed_pointAt⟩
  · -- Without two numbers the tape, the variables and the cursors are left alone.
    have hstill : m.Still m.operate := m.still_operate
    refine ⟨m.operate, rfl, ?_, hstill.moved, hstill.printed, ?_⟩ <;>
      obtain h | ⟨generator, h⟩ := operate_of_none hnone <;> rw [h] <;> rfl
  · -- The three kinds of rungs take what the operands yield, each in its own way.
    intro value element hyields rung hrung
    obtain ⟨hvariable, hliteral, hcommand⟩ := operate_writes hreads hyields hrung
    refine ⟨fun name hcell => ?_, fun old hcell => ?_, fun command hcell => ?_⟩
    · obtain ⟨vars, hvars, hoperate⟩ := hvariable name hcell
      exact ⟨vars, hvars, hdispatch hoperate⟩
    · exact hdispatch (hliteral old hcell)
    · exact hdispatch (hcommand command hcell)
  · -- Two elements of the cycle have one relation between them.
    exact Relation.existsUnique_successor
  · exact fun hne hvoid => hdispatch (operate_of_void hreads hne hvoid)

/-- Water is destroyed by earth, so that the two goes from the seven and not the seven from the
    two. -/
example :
    let rung (element : Element) (value : Float) : Rung :=
      { position := .input 0, name := "", element, cell := .literal value }
    let m : Machine := { tape := [rung .earth 2.0, rung .water 7.0], generator := .ofSeed 0 }
    m.operate.tape = [rung .earth 5.0, rung .water 7.0] := by
  decide +kernel

end Machine

end Verse
