import Mathlib.Data.List.TakeWhile
import Verse.Machine.Run

/-!
# Capturing a block

A punctuation mark captures the rungs between the rung after it, which names the block, and
the first rung from there on that ends it.

* `capture_cases`     the three ways in which a capture goes
-/

namespace Verse.Machine

/-- The machine after a block has been captured: the bureaucrat stands on the rung that ends
    the block, at `last`, and the variable of the name has the rungs between. -/
def captured (m : Machine) (name : Rung) (last : Nat) : Machine :=
  match name.variableName? with
  | some variableName =>
    { m with
      bureaucrat := last
      vars := m.vars.bind variableName (m.tape.extract (m.bureaucrat + 2) last) name.element }
  | none => { m.notice (.namelessBlock name.name) with bureaucrat := last }

/-- Where the block named by a rung ends: at the first rung behind the name that ends it. -/
structure EndsAt (m : Machine) (name : Rung) (last : Nat) : Prop where
  name_eq : m.tape[m.bureaucrat + 1]? = some name
  name_lt : m.bureaucrat + 2 ≤ last
  last_lt : last < m.tape.length
  ends : ∃ rung, m.tape[last]? = some rung ∧ rung.endsBlockOf name = true
  inside : ∀ rung ∈ m.tape.extract (m.bureaucrat + 2) last, rung.endsBlockOf name = false

/-- The element behind those that satisfy a predicate does not satisfy it. -/
theorem getElem?_length_takeWhile {α : Type} (p : α → Bool) (l : List α)
    (h : (l.takeWhile p).length < l.length) :
    ∃ a, l[(l.takeWhile p).length]? = some a ∧ p a = false := by
  induction l with
  | nil => cases h
  | cons a l ih =>
    by_cases hp : p a = true
    · rw [List.takeWhile_cons_of_pos hp] at h ⊢
      exact ih (Nat.lt_of_succ_lt_succ h)
    · rw [List.takeWhile_cons_of_neg hp]
      exact ⟨a, rfl, Bool.eq_false_iff.mpr hp⟩

/-- A capture finds no name, or a block that ends, or one that does not. -/
theorem capture_cases (m : Machine) :
    (m.tape[m.bureaucrat + 1]? = none ∧ m.capture = (.proceed, m.notice .lastPunctuation)) ∨
    (∃ name last, m.EndsAt name last ∧ m.capture = (.proceed, m.captured name last)) ∨
    (∃ name, m.tape[m.bureaucrat + 1]? = some name ∧
      (∀ rung ∈ m.tape.drop (m.bureaucrat + 2), rung.endsBlockOf name = false) ∧
      m.capture = m.fail .endlessBlock) := by
  rw [capture]
  simp only [Nat.add_assoc, Nat.reduceAdd]
  split
  case h_1 hnone => exact .inl ⟨hnone, rfl⟩
  case h_2 name hname =>
    -- The block is named, since it appears in the test, in the result and in what is found
    -- behind it.
    obtain ⟨block, hblock⟩ : ∃ block, block =
        (m.tape.drop (m.bureaucrat + 2)).takeWhile fun rung => !rung.endsBlockOf name := ⟨_, rfl⟩
    have hinside : ∀ rung ∈ block, rung.endsBlockOf name = false := by
      intro rung hrung
      rw [hblock] at hrung
      simpa using List.mem_takeWhile_imp hrung
    have htake : block = (m.tape.drop (m.bureaucrat + 2)).take block.length := by
      rw [hblock]
      exact List.prefix_iff_eq_take.mp (List.takeWhile_prefix _)
    rw [← hblock]
    split
    -- Something is left behind the block, and the first of it ends the block.
    case isTrue hlt =>
      refine .inr (.inl ⟨name, m.bureaucrat + 2 + block.length, ?_, ?_⟩)
      · obtain ⟨rung, hrung, hend⟩ := getElem?_length_takeWhile
          (fun rung => !rung.endsBlockOf name) (m.tape.drop (m.bureaucrat + 2)) (hblock ▸ hlt)
        rw [← hblock, List.getElem?_drop] at hrung
        refine ⟨hname, by omega, (List.getElem?_eq_some_iff.mp hrung).1,
          ⟨rung, hrung, by simpa using hend⟩, ?_⟩
        rwa [List.extract_eq_take_drop, Nat.add_sub_cancel_left, ← htake]
      · rw [captured, List.extract_eq_take_drop, Nat.add_sub_cancel_left, ← htake]
        cases name.variableName? with
        | some variableName => simp only [Nat.add_assoc]
        | none => simp only [Nat.add_assoc]; rfl
    -- Nothing is left, so the block is all that there is behind the name.
    case isFalse hge =>
      refine .inr (.inr ⟨name, hname, fun rung hrung => hinside rung ?_, rfl⟩)
      rw [htake, List.take_of_length_le (by omega)]
      exact hrung

end Verse.Machine
