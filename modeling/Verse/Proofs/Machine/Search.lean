import Mathlib.Order.Bounds.Basic
import Verse.Proofs.Machine.March
import Verse.Proofs.Machine.Write

/-!
# Where `Like` finds its number

`Like` goes down the tape from the delegate and stops at the first rung that has a number.  Rungs
without one are passed and draw nothing, so that what is found is the number at the greatest index,
read as it would be read there at once.

* `ReadsAs`                           what a rung is read as, and what it leaves of the generator
* `readAt_eq_some_iff`                reading a rung, told by its cell
* `findBelow_of_isGreatest`           the search stops at the greatest index
* `like_takes_the_nearest_number`     everything that `Like` does
-/

namespace Verse.Machine

/-! ## Reading, told by the cell -/

/-- What the rung at an index is read as, with the generator that is left.  A literal and a variable
    that holds a number draw nothing, and a command that has a range draws once. -/
inductive ReadsAs (m : Machine) (index : Nat) : Float → Generator → Prop
  | literal {rung : Rung} {value : Float} (hrung : m.tape[index]? = some rung)
      (hcell : rung.cell = .literal value) : ReadsAs m index value m.generator
  | held {rung : Rung} {name : String} {value : Float} (hrung : m.tape[index]? = some rung)
      (hcell : rung.cell = .variable name) (hvalue : m.vars.value? name = some value) :
      ReadsAs m index value m.generator
  | drawn {rung : Rung} {command : Command} {low high : Nat} (hrung : m.tape[index]? = some rung)
      (hcell : rung.cell = .command command) (hrange : command.range? = some (low, high)) :
      ReadsAs m index (Float.ofNat (m.generator.draw low high).1) (m.generator.draw low high).2

/-- There is a number at an index. -/
def IsNumberAt (m : Machine) (index : Nat) : Prop :=
  ∃ value generator, m.ReadsAs index value generator

/-- The indices from the delegate down at which there is a number. -/
def numbers (m : Machine) : Set Nat :=
  {i | i ≤ m.delegate ∧ m.IsNumberAt i}

variable {m m' : Machine} {index i : Nat} {value : Float} {generator : Generator} {name : String}

/-- What a rung is read as is what reading it gives. -/
theorem ReadsAs.readAt_eq (h : m.ReadsAs index value generator) :
    m.readAt index = (some value, { m with generator }) := by
  cases h with
  | literal hrung hcell => simp only [readAt, hrung, read, hcell]
  | held hrung hcell hvalue => simp only [readAt, hrung, read, hcell, hvalue]
  | drawn hrung hcell hrange => simp only [readAt, hrung, read, hcell, hrange]

/-- Reading gives a number just if the rung is read as one. -/
theorem readAt_eq_some_iff : m.readAt index = (some value, m') ↔
    ∃ generator, m.ReadsAs index value generator ∧ m' = { m with generator } := by
  constructor
  · intro h
    have hgenerator : ∃ generator, m.ReadsAs index value generator := by
      cases hrung : m.tape[index]? with
      | none =>
        simp only [readAt, hrung] at h
        cases h
      | some rung =>
        simp only [readAt, hrung] at h
        -- The kind of the cell tells how it is read.
        cases hcell : rung.cell with
        | literal number =>
          simp only [read, hcell] at h
          cases h
          exact ⟨_, .literal hrung hcell⟩
        | «variable» name =>
          simp only [read, hcell] at h
          exact ⟨_, .held hrung hcell (congrArg Prod.fst h)⟩
        | command command =>
          cases hrange : command.range? with
          | none =>
            simp only [read, hcell, hrange] at h
            cases h
          | some range =>
            simp only [read, hcell, hrange] at h
            cases h
            exact ⟨_, .drawn hrung hcell hrange⟩
        | invalid _ | punctuation =>
          simp only [read, hcell] at h
          cases h
    obtain ⟨generator, hreads⟩ := hgenerator
    exact ⟨generator, hreads, (congrArg Prod.snd (h.symm.trans hreads.readAt_eq))⟩
  · rintro ⟨generator, hreads, rfl⟩
    exact hreads.readAt_eq

/-- A rung without a number is passed, and nothing is drawn. -/
theorem readAt_of_not_isNumberAt (h : ¬ m.IsNumberAt index) : m.readAt index = (none, m) := by
  refine readAt_eq_of_none (Option.eq_none_iff_forall_ne_some.mpr fun value hvalue => h ?_)
  obtain ⟨generator, hreads, -⟩ := readAt_eq_some_iff.mp (Prod.ext hvalue rfl)
  exact ⟨value, generator, hreads⟩

/-! ## Going down -/

/-- Without a number there, the search goes on one below. -/
theorem findBelow_succ (h : ¬ m.IsNumberAt (index + 1)) :
    m.findBelow (index + 1) = m.findBelow index := by
  rw [findBelow, readAt_of_not_isNumberAt h]

/-- At a number the search is over. -/
theorem ReadsAs.findBelow_eq (h : m.ReadsAs index value generator) :
    m.findBelow index = (some (index, value), { m with generator }) := by
  cases index <;> rw [findBelow, h.readAt_eq]

/-- The search ends at the greatest index with a number. -/
theorem findBelow_of_isGreatest (hgreatest : IsGreatest {i | i ≤ index ∧ m.IsNumberAt i} i)
    (hreads : m.ReadsAs i value generator) :
    m.findBelow index = (some (i, value), { m with generator }) := by
  obtain ⟨⟨hle, -⟩, hmax⟩ := hgreatest
  -- Going up from the greatest index, there is no number at any of the others.
  induction index, hle using Nat.le_induction with
  | base => exact hreads.findBelow_eq
  | succ index hle ih =>
    have hnot : ¬ m.IsNumberAt (index + 1) := fun hnumber =>
      absurd (hmax ⟨le_rfl, hnumber⟩) (by omega)
    rw [findBelow_succ hnot]
    exact ih fun j hj => hmax ⟨Nat.le_succ_of_le hj.1, hj.2⟩

/-- Without any number the search comes back empty, and nothing has been drawn. -/
theorem findBelow_of_none (h : ∀ i ≤ index, ¬ m.IsNumberAt i) : m.findBelow index = (none, m) := by
  induction index with
  | zero => rw [findBelow, readAt_of_not_isNumberAt (h 0 le_rfl)]
  | succ index ih =>
    rw [findBelow_succ (h _ le_rfl)]
    exact ih fun i hi => h i (Nat.le_succ_of_le hi)

/-- If there is a number at all, there is one at the greatest index. -/
theorem exists_isGreatest_numbers (h : m.numbers.Nonempty) :
    ∃ i value generator, IsGreatest m.numbers i ∧ m.ReadsAs i value generator := by
  have hbounded : BddAbove m.numbers := ⟨m.delegate, fun i hi => hi.1⟩
  have hmem := Nat.sSup_mem h hbounded
  obtain ⟨value, generator, hreads⟩ := hmem.2
  exact ⟨sSup m.numbers, value, generator, ⟨hmem, fun i hi => le_csSup hbounded hi⟩, hreads⟩

/-! ## What is stored -/

/-- Without a variable before the bureaucrat, nothing happens. -/
theorem like_of_no_target
    (h : m.bureaucrat = 0 ∨ m.nameAt? (m.bureaucrat - 1) = none) : m.like = m := by
  rw [like]
  split
  · -- There is nothing before the bureaucrat.
    rfl
  case isFalse hstart =>
    dsimp only
    rw [show (m.tape[m.bureaucrat - 1]?).bind Rung.variableName? = none from h.resolve_left hstart]

/-- Writing to a variable changes the variables and nothing else. -/
theorem assignAt_of_nameAt? (h : m.nameAt? index = some name) (value : Float)
    (source : Option Element) :
    m.assignAt index value source = { m with vars := m.vars.assign name value source } := by
  obtain ⟨rung, hrung, hcell⟩ := nameAt?_eq_some_iff.mp h
  simp only [assignAt, hrung, hcell]

section

variable (hstart : 0 < m.bureaucrat) (htarget : m.nameAt? (m.bureaucrat - 1) = some name)
include hstart htarget

/-- What the search comes back with decides where the delegate goes and what is stored. -/
theorem like_of_findBelow {found : Option (Nat × Float)}
    (hfound : m.findBelow m.delegate = (found, { m with generator })) :
    m.like = { m with
      delegate := (found.map Prod.fst).getD m.delegate
      vars := m.vars.assign name ((found.map Prod.snd).getD 0.0) none
      generator } := by
  rw [like, if_neg hstart.ne']
  dsimp only
  rw [show (m.tape[m.bureaucrat - 1]?).bind Rung.variableName? = some name from htarget]
  dsimp only
  rw [hfound]
  -- The search leaves the tape as it is, so the variable is still where it was.
  cases found with
  | none => exact assignAt_of_nameAt? (m := { m with generator }) htarget 0.0 none
  | some found =>
    exact assignAt_of_nameAt? (m := { m with delegate := found.1, generator }) htarget found.2 none

/-- The number at the greatest index is stored, and the delegate goes there. -/
theorem like_of_isGreatest (hgreatest : IsGreatest m.numbers i)
    (hreads : m.ReadsAs i value generator) :
    m.like = { m with delegate := i, vars := m.vars.assign name value none, generator } :=
  like_of_findBelow hstart htarget (findBelow_of_isGreatest hgreatest hreads)

/-- Without a number a zero is stored. -/
theorem like_of_numbers_eq_empty (hempty : m.numbers = ∅) :
    m.like = { m with vars := m.vars.assign name 0.0 none } := by
  have hnone : ∀ i ≤ m.delegate, ¬ m.IsNumberAt i := fun i hi hnumber =>
    Set.notMem_empty i (hempty ▸ ⟨hi, hnumber⟩)
  exact like_of_findBelow hstart htarget (findBelow_of_none hnone)

end

/-- What `Like` does, for every tape and wherever the cursors are.

    Without a variable just before the bureaucrat nothing changes.  Otherwise the variable takes the
    number at the greatest index from the delegate down at which there is one, and the delegate goes
    there.  It is the number that is read before the variable is written to, even if the variable is
    what is found, and nothing is drawn unless it is drawn there.  If there is no such index, the
    variable takes zero and the delegate stays.

    A block that the variable holds is lost.  The variable keeps its element, or takes earth if it
    has none.  No rung, no other variable and nothing else changes. -/
theorem like_takes_the_nearest_number (m : Machine) :
    (m.bureaucrat = 0 ∨ m.nameAt? (m.bureaucrat - 1) = none → m.dispatch .like = (.proceed, m)) ∧
    ∀ name, 0 < m.bureaucrat → m.nameAt? (m.bureaucrat - 1) = some name →
      let taken (value : Float) : Variable :=
        { element := if m.vars.elementOf name = .void then .earth else m.vars.elementOf name
          binding := .value value }
      (∀ i value generator, IsGreatest m.numbers i → m.ReadsAs i value generator →
        ∃ vars : Variables,
          (∀ other, vars.get? other =
            if name = other then some (taken value) else m.vars.get? other) ∧
          m.dispatch .like = (.proceed, { m with delegate := i, vars, generator })) ∧
      (m.numbers.Nonempty →
        ∃ i value generator, IsGreatest m.numbers i ∧ m.ReadsAs i value generator) ∧
      (m.numbers = ∅ → ∃ vars : Variables,
        (∀ other, vars.get? other = if name = other then some (taken 0.0) else m.vars.get? other) ∧
        m.dispatch .like = (.proceed, { m with vars })) := by
  have hdispatch : ∀ {m'}, m.like = m' → m.dispatch .like = (.proceed, m') := by
    rintro m' rfl
    rfl
  refine ⟨fun h => hdispatch (like_of_no_target h), fun name hstart htarget => ?_⟩
  refine ⟨fun i value generator hgreatest hreads => ?_, exists_isGreatest_numbers, fun hempty => ?_⟩
  · exact ⟨_, fun other => m.vars.get?_assign name other value none,
      hdispatch (like_of_isGreatest hstart htarget hgreatest hreads)⟩
  · exact ⟨_, fun other => m.vars.get?_assign name other 0.0 none,
      hdispatch (like_of_numbers_eq_empty hstart htarget hempty)⟩

/-- The delegate is on the target, which is a block and has no number, and goes down to the five. -/
example :
    let rung (element : Element) (cell : Cell) : Rung :=
      { position := .input 0, name := "", element, cell }
    let m : Machine :=
      { tape := [rung .wood (.literal 5.0), rung .fire .punctuation, rung .fire (.variable "moon")]
        bureaucrat := 3, delegate := 2, generator := .ofSeed 0
        vars := Variables.empty.bind "moon" [] .fire }
    (m.like.delegate, m.like.vars.get? "moon") =
      (0, some { element := .fire, binding := .value 5.0 }) := by
  decide +kernel

end Verse.Machine
