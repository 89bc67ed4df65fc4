import Verse.Proofs.Machine.Act
import Verse.Proofs.Machine.Point
import Verse.Proofs.Variables

/-!
# Where blocks come from

A variable can only have a block that has been captured from the tape, between two steps.
A block ends before the first punctuation mark and before its own name, so that nothing in it
captures a block or calls the block itself.  While blocks are in progress, variables may
therefore lose their blocks to numbers, but none gets a new one.

* `Act.blocks`                   what an act does to the blocks of the variables
* `Point.Sound.next`             blocks stay free of punctuation marks and of their names
* `captures_of_block?`           a block goes back to its capture
* `blocks_come_from_captures`    the blocks of all variables throughout a run
-/

namespace Verse

namespace Machine

/-- Every variable has kept what it holds or has been given a number. -/
def KeepsBlocks (m m' : Machine) : Prop :=
  ∀ name, m'.vars.binding? name = m.vars.binding? name ∨
    ∃ value, m'.vars.binding? name = some (.value value)

/-- Variables that are left alone keep their blocks. -/
theorem keepsBlocks_of_vars_eq {m m' : Machine} (h : m'.vars = m.vars) : m.KeepsBlocks m' :=
  fun name => .inl (by rw [h])

/-- Blocks that are kept twice are kept. -/
theorem KeepsBlocks.trans {m₁ m₂ m₃ : Machine} (h : m₁.KeepsBlocks m₂)
    (h' : m₂.KeepsBlocks m₃) : m₁.KeepsBlocks m₃ := by
  intro name
  obtain heq' | hvalue := h' name
  · rw [heq']
    exact h name
  · exact .inr hvalue

/-- A variable that no longer has its block has been given a number. -/
theorem KeepsBlocks.block? {m m' : Machine} (h : m.KeepsBlocks m') (name : String) :
    m'.vars.block? name = m.vars.block? name ∨
      m'.vars.block? name = none ∧ ∃ value, m'.vars.value? name = some value := by
  obtain heq | ⟨value, hvalue⟩ := h name
  · exact .inl (Variables.block?_congr heq)
  · exact .inr ⟨Variables.block?_of_binding?_value hvalue, value,
      Variables.value?_eq_some_iff.mpr hvalue⟩

/-- No edit binds a block: the most it does to a variable is to give it a number. -/
theorem Edit.keepsBlocks {m m' : Machine} (h : Edit m m') : m.KeepsBlocks m' := by
  cases h with
  | @assign _ _ target _ _ value source _ =>
    intro name
    by_cases hname : target = name
    · exact .inr ⟨value, by rw [Variables.binding?_assign, if_pos hname]⟩
    · exact .inl (by rw [Variables.binding?_assign, if_neg hname])
  | advance _ relation => exact fun name => .inl (Variables.binding?_advance _ _ _ _)
  | record _ | draw _ | march _ | drift _ | change _ _ => exact keepsBlocks_of_vars_eq rfl

/-- Neither do edits one after the other. -/
theorem Edits.keepsBlocks {m m' : Machine} (h : Edits m m') : m.KeepsBlocks m' := by
  induction h with
  | refl => exact keepsBlocks_of_vars_eq rfl
  | tail _ hedit ih => exact ih.trans hedit.keepsBlocks

/-- The variables that a machine captures a block into, and the block.  It has the rungs
    between the one that names it and the first one that ends it. -/
def Captures (m : Machine) (name : String) (block : List Rung) : Prop :=
  ∃ nameRung last, nameRung.cell = .variable name ∧ m.EndsAt nameRung last ∧
    block = m.tape.extract (m.bureaucrat + 2) last

/-- Only a punctuation mark gives a variable a new block. -/
theorem Act.blocks {m : Machine} {rung : Rung} {result : Signal × Machine}
    (h : Act m rung result) :
    m.KeepsBlocks result.2 ∨ rung.cell = .punctuation ∧ ∃ name block, m.Captures name block ∧
      result.2.vars.block? name = some block ∧
      ∀ other, name ≠ other → result.2.vars.binding? other = m.vars.binding? other := by
  cases h with
  -- Everything but a capture leaves the variables alone, or only edits them.
  | effect _ h =>
    cases h with
    | proceed h => exact .inl h.keepsBlocks
    | pushed h how => exact .inl (h.keepsBlocks.trans (keepsBlocks_of_vars_eq rfl))
  | heaven _ | endless _ _ _ => exact .inl (keepsBlocks_of_vars_eq rfl)
  | heard _ _ | fetched _ _ _ | unheard _ _ _ =>
    exact .inl (keepsBlocks_of_vars_eq m.vars_heeded)
  | @captured hcell nameRung last hend =>
    unfold Machine.captured
    cases hname : nameRung.variableName? with
    -- A name that is no variable takes no block.
    | none => exact .inl (keepsBlocks_of_vars_eq rfl)
    | some name =>
      refine .inr ⟨hcell, name, _, ⟨nameRung, last, Rung.variableName?_eq_some hname, hend, rfl⟩,
        ?_, fun other hne => ?_⟩
      · rw [Variables.block?_eq_some_iff, Variables.binding?_bind, if_pos rfl]
      · rw [Variables.binding?_bind, if_neg hne]

/-- A block has no punctuation marks and does not name its own variable. -/
def IsBlockOf (name : String) (block : List Rung) : Prop :=
  ∀ rung ∈ block, rung.cell ≠ .punctuation ∧ rung.cell ≠ .variable name

/-- What is captured is a block of its variable. -/
theorem Captures.isBlockOf {m : Machine} {name : String} {block : List Rung}
    (h : m.Captures name block) : IsBlockOf name block := by
  obtain ⟨nameRung, last, hname, hend, rfl⟩ := h
  intro rung hrung
  have hinside := hend.inside rung hrung
  rw [Rung.endsBlockOf, Bool.or_eq_false_iff] at hinside
  obtain ⟨hmark, hlike⟩ := hinside
  -- Either kind of rung would have ended the block.
  refine ⟨fun hcell => ?_, fun hcell => ?_⟩
  · simp [Rung.isPunctuation, hcell] at hmark
  · simp [Rung.isLike, hname, hcell, Cell.isLike] at hlike

end Machine

namespace Point

open Machine

/-- The blocks of all variables, and what is left of those in progress, are blocks that a
    capture can leave. -/
structure Sound (p : Point) : Prop where
  blocks : ∀ name block, p.machine.vars.block? name = some block → IsBlockOf name block
  calls : ∀ call ∈ p.calls, IsBlockOf call.name call.rest

/-- At a point between two steps a punctuation mark is about to capture a block. -/
def Captures (p : Point) (name : String) (block : List Rung) : Prop :=
  ∃ m mark, p = .ready m ∧ m.tape[m.bureaucrat]? = some mark ∧ mark.cell = .punctuation ∧
    m.Captures name block

/-- From one point to the next, every variable keeps what it holds or is given a number,
    unless it captures a block. -/
theorem Sound.next_blocks {p : Point} (hp : p.Sound) :
    p.machine.KeepsBlocks p.next.machine ∨ ∃ name block, p.Captures name block ∧
      p.next.machine.vars.block? name = some block ∧
      ∀ other, name ≠ other →
        p.next.machine.vars.binding? other = p.machine.vars.binding? other := by
  cases p using shape_cases with
  | ready m =>
    rw [next]
    cases hmark : m.tape[m.bureaucrat]? with
    | none => exact .inl (keepsBlocks_of_vars_eq rfl)
    | some mark =>
      simp only [enter, machine_settle]
      obtain hkeeps | ⟨hcell, name, block, ⟨nameRung, last, hname, hend, hblock⟩, hcaptured⟩ :=
        (act_cases ({ m with moved := false } |>.begin none mark) mark).blocks
      · exact .inl hkeeps
      · -- The capture has seen the tape as it was before the step.
        refine .inr ⟨name, block, ⟨m, mark, rfl, hmark, hcell, ?_⟩, hcaptured⟩
        exact ⟨nameRung, last, hname, ⟨hend.name_eq, hend.name_lt, hend.last_lt, hend.ends,
          hend.inside⟩, hblock⟩
  | stepped m =>
    rw [next]
    split <;> exact .inl (keepsBlocks_of_vars_eq rfl)
  | returning _ _ _ _ | ended _ _ => exact .inl (keepsBlocks_of_vars_eq rfl)
  | inBlock name index rung rest calls m =>
    -- A block in progress has no punctuation marks, hence nothing is captured.
    have hmark := (hp.calls _ (List.mem_cons_self ..) rung (List.mem_cons_self ..)).1
    rw [next, enter, machine_settle]
    obtain hkeeps | ⟨hcell, -⟩ := (act_cases (m.begin (some ⟨name, index⟩) rung) rung).blocks
    · exact .inl hkeeps
    · exact absurd hcell hmark

/-- What is captured at a point is a block of its variable. -/
theorem Captures.isBlockOf {p : Point} {name : String} {block : List Rung}
    (h : p.Captures name block) : IsBlockOf name block := by
  obtain ⟨m, mark, -, -, -, hcaptures⟩ := h
  exact hcaptures.isBlockOf

/-- Settling an act leaves no more blocks in progress than there were. -/
theorem calls_settle (calls : List Call) (result : Signal × Machine) :
    ∀ call ∈ (settle calls result).calls, call ∈ calls := by
  obtain ⟨signal, m⟩ := result
  cases signal with
  | proceed => exact fun _ h => h
  | stop reason => exact List.forall_mem_nil _

/-- The blocks in progress once a rung has acted. -/
theorem calls_enter {m : Machine} {calls : List Call} (frame : Option Frame) (rung : Rung)
    (hblocks : ∀ name block, m.vars.block? name = some block → IsBlockOf name block)
    (hcalls : ∀ call ∈ calls, IsBlockOf call.name call.rest) :
    ∀ call ∈ (enter calls frame rung m).calls, IsBlockOf call.name call.rest := by
  intro call hcall
  -- A block in progress has just been called, or was in progress before.
  obtain hcalled | hcall := List.mem_append.mp (calls_settle _ _ call hcall)
  · obtain ⟨name, block, -, hblock, rfl⟩ := called?_eq_some (Option.mem_toList.mp hcalled)
    exact hblocks name block hblock
  · exact hcalls call hcall

/-- Blocks stay sound from one point to the next. -/
theorem Sound.next {p : Point} (hp : p.Sound) : p.next.Sound := by
  refine ⟨fun name block hblock => ?_, ?_⟩
  · obtain hkeeps | ⟨captured, block', hcaptures, hcaptured, hother⟩ := hp.next_blocks
    · -- The block was there before, or its variable has a number now.
      obtain heq | ⟨hnone, -⟩ := hkeeps.block? name
      · exact hp.blocks name block (heq ▸ hblock)
      · rw [hnone] at hblock
        cases hblock
    · -- The block has just been captured, or belongs to another variable than the captured one.
      by_cases hname : captured = name
      · subst hname
        obtain rfl := Option.some.inj (hcaptured.symm.trans hblock)
        exact hcaptures.isBlockOf
      · exact hp.blocks name block (Variables.block?_congr (hother name hname) ▸ hblock)
  · cases p using shape_cases with
    | ready m =>
      rw [Point.next]
      split
      · exact List.forall_mem_nil _
      · exact calls_enter none _ hp.blocks (List.forall_mem_nil _)
    | stepped _ | ended _ _ => exact List.forall_mem_nil _
    | returning _ _ _ _ => exact fun call h => hp.calls call (.tail _ h)
    | inBlock name index rung rest calls m =>
      -- What is left of the block once its first rung is taken off is still sound.
      refine calls_enter _ rung hp.blocks fun call hcall => ?_
      obtain rfl | hcall := List.mem_cons.mp hcall
      · exact fun rung h => hp.calls _ (List.mem_cons_self ..) rung (.tail _ h)
      · exact hp.calls call (.tail _ hcall)

/-- While a block is in progress nothing is captured. -/
theorem Sound.next_keepsBlocks {p : Point} (hp : p.Sound) (hcalls : p.calls ≠ []) :
    p.machine.KeepsBlocks p.next.machine := by
  obtain hkeeps | ⟨name, block, ⟨m, mark, rfl, -⟩, -⟩ := hp.next_blocks
  · exact hkeeps
  · exact absurd rfl hcalls

/-- What becomes of a block from one point to the next. -/
theorem Sound.next_block? {p : Point} (hp : p.Sound) (name : String) :
    p.next.machine.vars.block? name = p.machine.vars.block? name ∨
      (p.next.machine.vars.block? name = none ∧
        ∃ value, p.next.machine.vars.value? name = some value) ∨
      ∃ block, p.Captures name block ∧ p.next.machine.vars.block? name = some block := by
  obtain hkeeps | ⟨captured, block, hcaptures, hcaptured, hother⟩ := hp.next_blocks
  · exact (hkeeps.block? name).imp_right .inl
  · by_cases hname : captured = name
    · subst hname
      exact .inr (.inr ⟨block, hcaptures, hcaptured⟩)
    · exact .inl (Variables.block?_congr (hother name hname))

/-- No rung of a block captures a block or calls the block that it belongs to. -/
theorem Sound.upcoming {p : Point} (hp : p.Sound) {frame : Frame} {rung : Rung} {m : Machine}
    (h : p.upcoming? = some (some frame, rung, m)) :
    rung.cell ≠ .punctuation ∧ rung.cell ≠ .variable frame.name := by
  cases p using shape_cases with
  | ready m =>
    obtain ⟨rung', -, heq⟩ := Option.map_eq_some_iff.mp h
    cases heq
  | inBlock _ _ _ _ _ _ =>
    cases h
    exact hp.calls _ (List.mem_cons_self ..) rung (List.mem_cons_self ..)
  | stepped _ | returning _ _ _ _ | ended _ _ => cases h

end Point

namespace Machine

/-- At every point of every run the blocks are sound. -/
theorem sound_pointAt (m : Machine) (program : List Rung) (n : Nat) :
    (m.pointAt program n).Sound := by
  induction n with
  | zero =>
    refine ⟨fun name block h => ?_, List.forall_mem_nil _⟩
    rw [show (m.pointAt program 0).machine.vars = .empty from rfl, Variables.block?_eq_some_iff,
      Variables.binding?_empty] at h
    cases h
  | succ n ih =>
    rw [pointAt_succ]
    exact ih.next

/-- A block goes back to a capture, since which it has stayed the same. -/
theorem captures_of_block? (m : Machine) (program : List Rung) {n : Nat} {name : String}
    {block : List Rung} (h : (m.pointAt program n).machine.vars.block? name = some block) :
    ∃ k < n, (m.pointAt program k).Captures name block ∧
      ∀ j, k < j → j ≤ n → (m.pointAt program j).machine.vars.block? name = some block := by
  induction n with
  | zero =>
    rw [show (m.pointAt program 0).machine.vars = .empty from rfl, Variables.block?_eq_some_iff,
      Variables.binding?_empty] at h
    cases h
  | succ n ih =>
    have hnext := (m.sound_pointAt program n).next_block? name
    rw [← pointAt_succ] at hnext
    obtain hsame | ⟨hnone, -⟩ | ⟨block', hcaptures, hcaptured⟩ := hnext
    · -- The block has been there before, and goes back to the same capture.
      obtain ⟨k, hk, hcaptures, hsince⟩ := ih (hsame ▸ h)
      refine ⟨k, by omega, hcaptures, fun j hkj hjn => ?_⟩
      obtain hj | rfl : j ≤ n ∨ j = n + 1 := by omega
      · exact hsince j hkj hj
      · exact h
    · rw [hnone] at h
      cases h
    · -- The block has been captured just now.
      obtain rfl := Option.some.inj (hcaptured.symm.trans h)
      refine ⟨n, by omega, hcaptures, fun j hnj hjn => ?_⟩
      obtain rfl : j = n + 1 := by omega
      exact h

/-- As long as blocks are in progress, no variable gets a block. -/
theorem keepsBlocks_of_calls (m : Machine) (program : List Rung) (n : Nat) {k : Nat}
    (h : ∀ j < k, (m.pointAt program (n + j)).calls ≠ []) :
    (m.pointAt program n).machine.KeepsBlocks (m.pointAt program (n + k)).machine := by
  induction k with
  | zero => exact keepsBlocks_of_vars_eq rfl
  | succ k ih =>
    refine (ih fun j hj => h j (by omega)).trans ?_
    rw [← Nat.add_assoc, pointAt_succ]
    exact (m.sound_pointAt program (n + k)).next_keepsBlocks (h k (by omega))

/-- At every point of every run, a block that a variable has is free of punctuation marks and
    of the name of the variable.  It is what a punctuation mark has captured from the tape
    between two steps, and has stayed the same since; at the next point it is still the same,
    unless the variable is given a number or captures another block.  No rung of a block in
    progress captures a block or calls its own.  From there on, as long as blocks are in progress,
    a variable keeps what it holds or is given a number.  If the run ends, its end is one of
    these points. -/
theorem blocks_come_from_captures (m : Machine) (program : List Rung) :
    (∀ n,
      (∀ name block, (m.pointAt program n).machine.vars.block? name = some block →
        IsBlockOf name block ∧
        (∃ k < n, (m.pointAt program k).Captures name block ∧
          ∀ j, k < j → j ≤ n → (m.pointAt program j).machine.vars.block? name = some block) ∧
        ((m.pointAt program (n + 1)).machine.vars.block? name = some block ∨
          ((m.pointAt program (n + 1)).machine.vars.block? name = none ∧
            ∃ value, (m.pointAt program (n + 1)).machine.vars.value? name = some value) ∨
          ∃ block', (m.pointAt program n).Captures name block' ∧
            (m.pointAt program (n + 1)).machine.vars.block? name = some block')) ∧
      (∀ frame rung m₁, (m.pointAt program n).upcoming? = some (some frame, rung, m₁) →
        rung.cell ≠ .punctuation ∧ rung.cell ≠ .variable frame.name) ∧
      ∀ k, (∀ j < k, (m.pointAt program (n + j)).calls ≠ []) →
        (m.pointAt program n).machine.KeepsBlocks (m.pointAt program (n + k)).machine) ∧
    ∀ fuel reason m', m.run fuel program = some (reason, m') →
      ∃ n, m.pointAt program n = .ended reason m' := by
  refine ⟨fun n => ?_, fun _ _ _ hrun => exists_pointAt_of_run hrun⟩
  have hsound := m.sound_pointAt program n
  refine ⟨fun name block hblock => ⟨hsound.blocks name block hblock,
    m.captures_of_block? program hblock, ?_⟩, fun frame rung m₁ hup => hsound.upcoming hup,
    fun k hcalls => m.keepsBlocks_of_calls program n hcalls⟩
  have hnext := hsound.next_block? name
  rwa [hblock, ← pointAt_succ] at hnext

end Machine

end Verse
