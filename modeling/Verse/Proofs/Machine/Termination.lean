import Mathlib.Data.Set.Card
import Verse.Proofs.Machine.Blocks

/-!
# Steps that come to an end

A step can only go on for ever by calling blocks for ever.  While blocks are in progress none
gets a new block, so that the blocks found at the start of a step are all that it can ever call.
If they do not call each other in a circle, calls nest no deeper than there are variables.

* `Variables.Calls`             the relation between a variable and those that its block calls
* `rank_lt_of_calls`            a call leads to a variable that can reach fewer others
* `exists_execute_of_rank_lt`   the depth that executing a rung needs
* `step_terminates`             every step ends, unless two variables call each other
-/

namespace Verse

namespace Variables

variable {vars : Variables} {name caller callee : String}

/-- The block of the one variable has a rung of the other, which has a block as well. -/
def Calls (vars : Variables) (caller callee : String) : Prop :=
  (∃ block, vars.block? caller = some block ∧ ∃ rung ∈ block, rung.cell = .variable callee) ∧
    (vars.block? callee).isSome = true

/-- No variable comes to call itself. -/
def Acyclic (vars : Variables) : Prop :=
  ∀ name, ¬ Relation.TransGen vars.Calls name name

/-- The variables that can be called. -/
def callable (vars : Variables) : Set String :=
  {name | (vars.block? name).isSome = true}

/-- The variables that a variable comes to call, by itself or through others. -/
def reach (vars : Variables) (name : String) : Set String :=
  {callee | Relation.TransGen vars.Calls name callee}

/-- How many variables a variable comes to call. -/
noncomputable def rank (vars : Variables) (name : String) : Nat :=
  (vars.reach name).ncard

/-- A variable that can be called is in the table of variables. -/
theorem callable_subset_keys (vars : Variables) :
    vars.callable ⊆ ↑vars.table.keys.toFinset := by
  intro name hname
  rw [Finset.mem_coe, List.mem_toFinset, Std.ExtTreeMap.mem_keys,
    Std.ExtTreeMap.mem_iff_isSome_getElem?]
  -- A variable with a block is in the table.
  obtain ⟨block, hblock⟩ := Option.isSome_iff_exists.mp hname
  obtain ⟨v, hv, -⟩ := Option.bind_eq_some_iff.mp hblock
  exact Option.isSome_iff_exists.mpr ⟨v, hv⟩

/-- There are finitely many variables that can be called. -/
theorem finite_callable (vars : Variables) : vars.callable.Finite :=
  (Finset.finite_toSet _).subset vars.callable_subset_keys

/-- There are no more of them than there are variables. -/
theorem ncard_callable_le (vars : Variables) : vars.callable.ncard ≤ vars.size := by
  have hkeys := Set.ncard_le_ncard vars.callable_subset_keys (Finset.finite_toSet _)
  rw [Set.ncard_coe_finset] at hkeys
  have hcard := List.toFinset_card_le vars.table.keys
  rw [Std.ExtTreeMap.length_keys] at hcard
  exact hkeys.trans hcard

/-- What is called at all can be called. -/
theorem reach_subset_callable (vars : Variables) (name : String) :
    vars.reach name ⊆ vars.callable := by
  intro callee hcallee
  obtain ⟨caller, -, hcalls⟩ := Relation.TransGen.tail'_iff.mp hcallee
  exact hcalls.2

/-- A call leads to a variable that comes to call fewer others: all that it calls are called
    by its caller too, and it is not among them itself. -/
theorem rank_lt_of_calls (hacyclic : vars.Acyclic) (h : vars.Calls caller callee) :
    vars.rank callee < vars.rank caller := by
  have hfinite := vars.finite_callable.subset (vars.reach_subset_callable caller)
  -- The callee is what its caller reaches and it does not reach itself, so the inclusion is
  -- strict.
  refine Set.ncard_lt_ncard ⟨fun other hother => .head h hother, fun hsubset => ?_⟩ hfinite
  have hself : callee ∈ vars.reach callee := hsubset (.single h)
  exact hacyclic callee hself

/-- A variable with a block does not come to call itself, hence not all of them. -/
theorem rank_lt_size (hacyclic : vars.Acyclic) (h : (vars.block? name).isSome = true) :
    vars.rank name < vars.size := by
  have hne : name ∉ vars.reach name := hacyclic name
  have hssubset : vars.reach name ⊂ vars.callable :=
    ⟨vars.reach_subset_callable name, fun hsubset => hne (hsubset h)⟩
  exact (Set.ncard_lt_ncard hssubset vars.finite_callable).trans_le vars.ncard_callable_le

/-- If there is a circle of calls, two variables come to call each other, as no variable calls
    itself. -/
theorem exists_mutual_of_not_acyclic (h : ¬ vars.Acyclic)
    (hself : ∀ name, ¬ vars.Calls name name) :
    ∃ a b, a ≠ b ∧ Relation.TransGen vars.Calls a b ∧ Relation.TransGen vars.Calls b a := by
  obtain ⟨a, ha⟩ := not_forall_not.mp h
  -- A circle starts with a call, and its other end leads back.
  obtain ⟨b, hcalls, hback⟩ := Relation.TransGen.head'_iff.mp ha
  have hne : a ≠ b := by
    rintro rfl
    exact hself a hcalls
  refine ⟨a, b, hne, .single hcalls, ?_⟩
  obtain heq | hback := Relation.reflTransGen_iff_eq_or_transGen.mp hback
  · exact absurd heq hne
  · exact hback

end Variables

namespace Machine

variable {m₀ : Machine}

/-- A block is performed if each of its rungs is executed, whatever the rungs before it have made
    of the machine apart from giving out blocks. -/
theorem exists_perform {e : Option Frame → Rung → Machine → Option (Signal × Machine)}
    {rungs : List Rung}
    (he : ∀ rung ∈ rungs, ∀ frame m, m₀.KeepsBlocks m →
      ∃ result, e frame rung m = some result ∧ m₀.KeepsBlocks result.2)
    (name : String) (index : Nat) {m : Machine} (hm : m₀.KeepsBlocks m) :
    ∃ result, perform e name index rungs m = some result ∧ m₀.KeepsBlocks result.2 := by
  induction rungs generalizing index m with
  | nil => exact ⟨(.proceed, m), rfl, hm⟩
  | cons rung rest ih =>
    -- The first rung keeps to the blocks, so the rest is performed with no others.
    obtain ⟨⟨signal, m₁⟩, hfirst, hkeeps⟩ :=
      he rung (List.mem_cons_self ..) (some ⟨name, index⟩) m hm
    rw [perform, hfirst]
    cases signal with
    | stop reason => exact ⟨_, rfl, hkeeps⟩
    | proceed =>
      apply ih _ _ hkeeps
      intro other hother
      exact he other (List.mem_cons_of_mem _ hother)

/-- A rung that calls nothing is executed at any depth, and only a punctuation mark gives out a
    block. -/
theorem exists_execute_of_none {rung : Rung} (hmark : rung.cell ≠ .punctuation)
    {frame : Option Frame} {m : Machine} (hm : m₀.KeepsBlocks m)
    (hcall : (m.begin frame rung).called? rung = none) (depth : Nat) :
    ∃ result, execute depth frame rung m = some result ∧ m₀.KeepsBlocks result.2 := by
  refine ⟨_, execute_of_none hcall depth, ?_⟩
  obtain hkeeps | ⟨hcell, -⟩ := ((m.begin frame rung).act_cases rung).blocks
  · exact KeepsBlocks.trans hm hkeeps
  · exact absurd hcell hmark

/-- A block that is called now was there before. -/
theorem KeepsBlocks.of_called? {rung : Rung} {frame : Option Frame} {m : Machine} {call : Call}
    (hm : m₀.KeepsBlocks m) (hcall : (m.begin frame rung).called? rung = some call) :
    ∃ name block, rung.cell = .variable name ∧ m₀.vars.block? name = some block ∧
      call = ⟨name, 0, block⟩ := by
  obtain ⟨name, block, hcell, hblock, rfl⟩ := called?_eq_some hcall
  have hblock' : m.vars.block? name = some block := hblock
  refine ⟨name, block, hcell, ?_, rfl⟩
  obtain heq | ⟨hnone, -⟩ := hm.block? name
  · rw [← heq, hblock']
  · rw [hnone] at hblock'
    cases hblock'

/-- Executing a rung needs no more depth than the rank of the variable that it stands for, as
    long as the blocks are those of a machine in which variables do not call each other in a
    circle. -/
theorem exists_execute_of_rank_lt (hacyclic : m₀.vars.Acyclic)
    (hsound : ∀ name block, m₀.vars.block? name = some block → IsBlockOf name block)
    {depth : Nat} {rung : Rung} (hmark : rung.cell ≠ .punctuation)
    (hrank : ∀ name, rung.cell = .variable name → (m₀.vars.block? name).isSome = true →
      m₀.vars.rank name < depth)
    (frame : Option Frame) {m : Machine} (hm : m₀.KeepsBlocks m) :
    ∃ result, execute depth frame rung m = some result ∧ m₀.KeepsBlocks result.2 := by
  -- The induction is on the depth: what a block calls has a lower rank than its variable.
  induction depth generalizing rung frame m with
  | zero =>
    cases hcall : (m.begin frame rung).called? rung with
    | none => exact exists_execute_of_none hmark hm hcall 0
    | some call =>
      obtain ⟨name, block, hcell, hblock, -⟩ := hm.of_called? hcall
      have hlt := hrank name hcell (by rw [hblock, Option.isSome_some])
      exact absurd hlt (Nat.not_lt_zero _)
  | succ depth ih =>
    cases hcall : (m.begin frame rung).called? rung with
    | none => exact exists_execute_of_none hmark hm hcall (depth + 1)
    | some call =>
      obtain ⟨name, block, hcell, hblock, rfl⟩ := hm.of_called? hcall
      have hlt := hrank name hcell (by rw [hblock, Option.isSome_some])
      rw [execute_succ_of_some hcall]
      have hbegin : m₀.KeepsBlocks (m.begin frame rung) := hm
      refine exists_perform (fun other hother frame m hm => ?_) name 0 hbegin
      -- The rungs of the block are no punctuation marks, and call what its variable calls.
      refine ih (hsound name block hblock other hother).1 (fun callee hcallee hsome => ?_) frame hm
      have hcalls : m₀.vars.Calls name callee :=
        ⟨⟨block, hblock, other, hother, hcallee⟩, hsome⟩
      have := Variables.rank_lt_of_calls hacyclic hcalls
      omega

/-- A step ends if the blocks at its start do not call each other in a circle. -/
theorem exists_step_of_acyclic {m : Machine} (hacyclic : m.vars.Acyclic)
    (hsound : ∀ name block, m.vars.block? name = some block → IsBlockOf name block) :
    ∃ result, m.step m.vars.size = some result := by
  rw [step]
  cases hrung : m.tape[m.bureaucrat]? with
  | none => exact ⟨_, rfl⟩
  | some rung =>
    -- A punctuation mark calls nothing, and any other rung keeps to the blocks there are.
    by_cases hmark : rung.cell = .punctuation
    · have hnone : ({ m with moved := false }.begin none rung).called? rung = none := by
        rw [called?, Rung.variableName?, hmark]
        rfl
      simp only [execute_of_none hnone, Option.map_some]
      exact ⟨_, rfl⟩
    · obtain ⟨result, hexecute, -⟩ := exists_execute_of_rank_lt hacyclic hsound hmark
        (fun name _ hsome => Variables.rank_lt_size hacyclic hsome) none
        (show m.KeepsBlocks { m with moved := false } from keepsBlocks_of_vars_eq rfl)
      simp only [hexecute, Option.map_some]
      exact ⟨_, rfl⟩

/-- A step from a point of a run ends if the blocks of the variables do not call each other in a
    circle, whatever the machine is like otherwise.  Calls nest no deeper than there are
    variables, and the step comes to its end through finitely many points.  A step that does not
    end, however deep calls may nest, needs two different variables that come to call each
    other. -/
theorem step_terminates (m : Machine) (program : List Rung) {n : Nat} {m₁ m₂ : Machine}
    (hready : m.pointAt program n = .ready m₁) (hvars : m₂.vars = m₁.vars) :
    (m₁.vars.Acyclic → ∃ result, m₂.step m₁.vars.size = some result ∧
      (Point.ready m₂).Reaches (.ofStep result)) ∧
    ((∀ depth, m₂.step depth = none) → ∃ a b, a ≠ b ∧
      Relation.TransGen m₁.vars.Calls a b ∧ Relation.TransGen m₁.vars.Calls b a) := by
  have hsound := (m.sound_pointAt program n).blocks
  rw [hready] at hsound
  rw [← hvars]
  have hblocks : ∀ name block, m₂.vars.block? name = some block → IsBlockOf name block := by
    rw [hvars]
    exact hsound
  have hends : m₂.vars.Acyclic → ∃ result, m₂.step m₂.vars.size = some result :=
    fun hacyclic => exists_step_of_acyclic hacyclic hblocks
  refine ⟨fun hacyclic => ?_, fun hnone => ?_⟩
  · obtain ⟨result, hstep⟩ := hends hacyclic
    exact ⟨result, hstep, reaches_of_step hstep⟩
  · apply Variables.exists_mutual_of_not_acyclic
    · intro hacyclic
      obtain ⟨result, hstep⟩ := hends hacyclic
      rw [hnone] at hstep
      cases hstep
    · -- A block does not name its own variable.
      intro name hcalls
      obtain ⟨⟨block, hblock, rung, hrung, hcell⟩, -⟩ := hcalls
      exact (hblocks name block hblock rung hrung).2 hcell

/-- A variable with a block calls that block from its start. -/
theorem called?_of_block? {m : Machine} {rung : Rung} {name : String} {block : List Rung}
    (hcell : rung.cell = .variable name) (hblock : m.vars.block? name = some block) :
    m.called? rung = some ⟨name, 0, block⟩ := by
  rw [called?, Rung.variableName?, hcell, Option.bind_some, hblock, Option.map_some]

/-- Two variables whose blocks begin with each other do not come to an end at any depth. -/
theorem execute_of_mutual {a b : String} {rungA rungB : Rung} {restA restB : List Rung}
    {m : Machine} (hcellA : rungA.cell = .variable a) (hcellB : rungB.cell = .variable b)
    (hblockA : m.vars.block? a = some (rungB :: restA))
    (hblockB : m.vars.block? b = some (rungA :: restB)) (depth : Nat) (frame : Option Frame) :
    execute depth frame rungA m = none := by
  induction depth generalizing a b rungA rungB restA restB m frame with
  | zero =>
    have hbegin : (m.begin frame rungA).vars.block? a = some (rungB :: restA) := hblockA
    exact execute_zero_of_some (called?_of_block? hcellA hbegin)
  | succ depth ih =>
    have hbegin : (m.begin frame rungA).vars.block? a = some (rungB :: restA) := hblockA
    rw [execute_succ_of_some (called?_of_block? hcellA hbegin)]
    -- One level down the two have changed places.
    have hnone : execute depth (some ⟨a, 0⟩) rungB (m.begin frame rungA) = none :=
      ih (m := m.begin frame rungA) hcellB hcellA hblockB hblockA _
    rw [perform, hnone]

/-- A rung of a variable. -/
def variableRung (name : String) : Rung :=
  { position := .input 0, name, element := .earth, cell := .variable name }

/-- A rung that does nothing. -/
def idleRung : Rung :=
  { position := .input 0, name := "today", element := .earth, cell := .command .tomorrow }

/-- A program that gives `star` a block of one rung and `moon` one that calls `star`, and then
    calls `moon`. -/
def moonCalling (rung : Rung) : List Rung :=
  let mark : Rung := { position := .input 0, name := ".", element := .earth, cell := .punctuation }
  [mark, variableRung "star", rung, mark, mark, variableRung "moon", variableRung "star", mark,
    variableRung "moon"]

/-- The variables that `moonCalling` has before its call. -/
def moonVars (rung : Rung) : Variables :=
  (Variables.empty.bind "star" [rung] .earth).bind "moon" [variableRung "star"] .earth

/-- The variables of that program have one block each. -/
theorem block?_moonVars (rung : Rung) (name : String) :
    (moonVars rung).block? name =
      if "moon" = name then some [variableRung "star"]
      else if "star" = name then some [rung] else none := by
  apply Option.ext
  intro block
  rw [moonVars, Variables.block?_eq_some_iff, Variables.binding?_bind, Variables.binding?_bind,
    Variables.binding?_empty]
  split
  · simp
  · split <;> simp

/-- If `star` does nothing, only `moon` calls a variable. -/
theorem acyclic_moonVars : (moonVars idleRung).Acyclic := by
  have hcalls : ∀ a b, (moonVars idleRung).Calls a b → a = "moon" ∧ b = "star" := by
    intro a b h
    obtain ⟨⟨block, hblock, rung, hrung, hcell⟩, -⟩ := h
    rw [block?_moonVars] at hblock
    split at hblock
    case isTrue hmoon =>
      cases hblock
      obtain rfl := List.mem_singleton.mp hrung
      exact ⟨hmoon.symm, (Cell.variable.inj hcell).symm⟩
    case isFalse =>
      split at hblock
      · cases hblock
        obtain rfl := List.mem_singleton.mp hrung
        cases hcell
      · cases hblock
  intro name hname
  -- A circle would begin and end with a call, and one of these ends at what calls nothing.
  obtain ⟨callee, hfirst, -⟩ := Relation.TransGen.head'_iff.mp hname
  obtain ⟨caller, -, hlast⟩ := Relation.TransGen.tail'_iff.mp hname
  have hmoon := (hcalls _ _ hfirst).1
  have hstar := (hcalls _ _ hlast).2
  rw [hmoon] at hstar
  exact absurd hstar (by decide)

/-- The machine that comes to the call of `moon`. -/
def beforeMoon (rung : Rung) : Machine :=
  (({ generator := .ofSeed 0 } : Machine).pointAt (moonCalling rung) 4).machine

/-- The call of `moon` comes to its end if `star` does nothing, and never does if `star` calls
    `moon` in turn. -/
theorem step_terminates_moonCalling :
    (∃ result, (beforeMoon idleRung).step (beforeMoon idleRung).vars.size = some result) ∧
    (∀ depth, (beforeMoon (variableRung "moon")).step depth = none) ∧
    ∃ a b, a ≠ b ∧ Relation.TransGen (beforeMoon (variableRung "moon")).vars.Calls a b ∧
      Relation.TransGen (beforeMoon (variableRung "moon")).vars.Calls b a := by
  have hidle := step_terminates { generator := .ofSeed 0 } (moonCalling idleRung)
    (show Machine.pointAt _ _ 4 = .ready (beforeMoon idleRung) from rfl) rfl
  have hmutual := step_terminates { generator := .ofSeed 0 } (moonCalling (variableRung "moon"))
    (show Machine.pointAt _ _ 4 = .ready (beforeMoon (variableRung "moon")) from rfl) rfl
  -- However deep the calls may nest, the two variables use it up.
  have hnone : ∀ depth, (beforeMoon (variableRung "moon")).step depth = none := by
    intro depth
    obtain ⟨m, hm⟩ : ∃ m, m = beforeMoon (variableRung "moon") := ⟨_, rfl⟩
    have hrung : m.tape[m.bureaucrat]? = some (variableRung "moon") := by rw [hm]; rfl
    have hvars : m.vars = moonVars (variableRung "moon") := by rw [hm]; rfl
    have hmoon : m.vars.block? "moon" = some [variableRung "star"] := by
      rw [hvars, block?_moonVars, if_pos rfl]
    have hstar : m.vars.block? "star" = some [variableRung "moon"] := by
      rw [hvars, block?_moonVars, if_neg (by decide), if_pos rfl]
    have hexecute : execute depth none (variableRung "moon") { m with moved := false } = none :=
      execute_of_mutual (m := { m with moved := false }) rfl rfl hmoon hstar depth none
    rw [← hm, step]
    simp only [hrung, hexecute, Option.map_none]
  obtain ⟨result, hresult, -⟩ := hidle.1 acyclic_moonVars
  exact ⟨⟨result, hresult⟩, hnone, hmutual.2 hnone⟩

end Machine

end Verse
