import Verse.Proofs.Machine.Edit
import Verse.Proofs.Machine.Still

/-!
# Writing to one rung

Most commands write to the rung at the delegate and to its variable, and to nothing else.  They do
so by chains of single writes, which say where each of them goes and what it takes.

* `Write`, `Writes`       a single write to a rung or to its variable, and chains of them
* `writes_dispatch`       the commands that work on the rung at the delegate
* `Writes.spares`         what writes to one rung leave alone
-/

namespace Verse

/-- The void is related to nothing. -/
theorem Relation.between_void {earlier later : Element} (h : earlier = .void ∨ later = .void) :
    between earlier later = none := by
  obtain rfl | rfl := h
  · cases later <;> rfl
  · cases earlier <;> rfl

namespace Machine

/-- The name of the variable on the rung at an index. -/
def nameAt? (m : Machine) (index : Nat) : Option String :=
  (m.tape[index]?).bind Rung.variableName?

/-- A rung names a variable if it is one. -/
theorem nameAt?_eq_some_iff {m : Machine} {index : Nat} {name : String} :
    m.nameAt? index = some name ↔
      ∃ rung, m.tape[index]? = some rung ∧ rung.cell = .variable name := by
  rw [nameAt?, Option.bind_eq_some_iff]
  refine exists_congr fun rung => and_congr_right fun _ => ⟨Rung.variableName?_eq_some, fun h => ?_⟩
  rw [Rung.variableName?, h]

/-! ## Writing to one rung -/

/-- A single change that a command makes to the rung at an index or to its variable, or that can
    be made without writing to either.  A variable has a number before it is written to, and no
    number brings along the void. -/
inductive Write (index : Nat) : Machine → Machine → Prop
  | record {m : Machine} {event : Event} (h : event.isRemark = true) :
      Write index m (m.record event)
  | draw {m : Machine} (generator : Generator) : Write index m { m with generator }
  | change {m : Machine} {old new : Rung} (h : m.tape[index]? = some old) (c : old.Change new) :
      Write index m { m with tape := m.tape.set index new }
  | assign {m : Machine} {name : String} (h : m.nameAt? index = some name)
      (hnumber : (m.vars.value? name).isSome = true) (value : Float) {source : Option Element}
      (hs : source ≠ some .void) :
      Write index m { m with vars := m.vars.assign name value source }
  | advance {m : Machine} {name : String} (h : m.nameAt? index = some name)
      (hnumber : (m.vars.value? name).isSome = true) (relation : Relation) :
      Write index m { m with vars := m.vars.advance name relation }

/-- A chain of such changes. -/
abbrev Writes (index : Nat) : Machine → Machine → Prop := Relation.ReflTransGen (Write index)

/-- The rung at an index is no variable, or one that has a number. -/
def HasNumberAt (m : Machine) (index : Nat) : Prop :=
  ∀ name, m.nameAt? index = some name → (m.vars.value? name).isSome = true

variable {m m' : Machine} {index : Nat}

/-- What has been read as a number has one. -/
theorem hasNumberAt_of_readAt {value : Float} (h : m.readAt index = (some value, m')) :
    m.HasNumberAt index := by
  intro name hname
  obtain ⟨rung, hrung, hcell⟩ := nameAt?_eq_some_iff.mp hname
  exact isSome_value?_of_readAt h hrung hcell

/-- A number may be written to a rung that has one. -/
theorem writes_assignAt (hnumber : m.HasNumberAt index) (value : Float) {source : Option Element}
    (hs : source ≠ some .void) : Writes index m (m.assignAt index value source) := by
  unfold assignAt
  split
  · exact .refl
  case h_2 rung hrung =>
    split
    case h_1 name hname =>
      have hname := nameAt?_eq_some_iff.mpr ⟨rung, hrung, hname⟩
      exact .single (.assign hname (hnumber name hname) value hs)
    case h_2 old hold =>
      rw [modify_eq_set hrung]
      have hchange := Write.change hrung (.overwrite hold value)
      simp only [setLiteral, hold]
      exact .single hchange
    · exact .refl

/-- The element of a rung may advance if the rung has a number. -/
theorem writes_advanceAt (hnumber : m.HasNumberAt index) (relation : Relation) :
    Writes index m (m.advanceAt index relation) := by
  unfold advanceAt
  split
  · exact .refl
  case h_2 rung hrung =>
    split
    case h_1 name hname =>
      have hname := nameAt?_eq_some_iff.mpr ⟨rung, hrung, hname⟩
      exact .single (.advance hname (hnumber name hname) relation)
    case h_2 value hlit =>
      rw [modify_eq_set hrung]
      exact .single (.change hrung (.advance hlit relation))
    · exact .refl

/-! ## Commands that work on the rung at the delegate -/

theorem writes_speak (m : Machine) : Writes m.delegate m m.speak := by
  obtain ⟨generator, hread | ⟨value, rung, hread, -⟩⟩ := m.readAt_cases m.delegate
  · rw [speak, hread]
    exact .single (.draw generator)
  · rw [speak, hread]
    dsimp only
    split <;> exact .tail (.single (.draw generator)) (.record rfl)

theorem writes_count (m : Machine) : Writes m.delegate m m.count := by
  obtain ⟨generator, hread | ⟨value, rung, hread, -⟩⟩ := m.readAt_cases m.delegate
  · rw [count, hread]
    exact .single (.draw generator)
  · rw [count, hread]
    exact .tail (.single (.draw generator)) (.record rfl)

theorem writes_advanceOperand (m : Machine) (relation : Relation) :
    Writes m.delegate m (m.advanceOperand relation) := by
  obtain ⟨generator, hread | ⟨value, rung, hread, -⟩⟩ := m.readAt_cases m.delegate
  · rw [advanceOperand, hread]
    exact .single (.draw generator)
  · have hnumber : HasNumberAt { m with generator } m.delegate :=
      hasNumberAt_of_readAt (m := m) hread
    rw [advanceOperand, hread]
    exact .head (.draw generator) (writes_advanceAt hnumber relation)

theorem writes_negative (m : Machine) : Writes m.delegate m m.negative := by
  obtain ⟨generator, hread | ⟨value, rung, hread, -⟩⟩ := m.readAt_cases m.delegate
  · rw [negative, hread]
    exact .single (.draw generator)
  · have hnumber : HasNumberAt { m with generator } m.delegate :=
      hasNumberAt_of_readAt (m := m) hread
    rw [negative, hread]
    exact .head (.draw generator) (writes_assignAt hnumber _ (by simp))

theorem writes_become (m : Machine) : Writes m.delegate m m.become := by
  obtain ⟨generator, hread | ⟨value, rung, hread, -⟩⟩ := m.readAt_cases m.delegate
  · rw [become, hread]
    exact .single (.draw generator)
  · have hnumber : HasNumberAt { m with generator } m.delegate :=
      hasNumberAt_of_readAt (m := m) hread
    rw [become, hread]
    refine .head (.draw generator) ?_
    dsimp only
    split
    case isTrue hzero =>
      obtain ⟨rung', hrung', hcell⟩ := cell_of_readAt_zero (congrArg Prod.fst hread) hzero
      rw [modify_eq_set (m := { m with generator }) hrung' toHeaven]
      exact .single (.change hrung' (.ascend hcell))
    case isFalse =>
      have hgrown : Writes m.delegate _ (assignAt { m with generator } m.delegate (grow value) none) :=
        writes_assignAt hnumber _ (by simp)
      split
      case h_1 name hname =>
        -- The variable has a number when its element advances: it has just been given one.
        obtain ⟨rung', hrung', hcell⟩ := nameAt?_eq_some_iff.mp hname
        refine hgrown.trans (writes_advanceAt (fun other hother => ?_) .create)
        obtain ⟨rung'', hrung'', hcell'⟩ := nameAt?_eq_some_iff.mp hother
        exact isSome_value?_assignAt (m := { m with generator }) hrung' hcell _ none rung'' other
          hrung'' hcell'
      case h_2 => exact hgrown

theorem writes_operate (m : Machine) : Writes m.delegate m m.operate := by
  unfold operate
  dsimp only
  split
  · exact .single (.record rfl)
  · obtain ⟨generator, hreadB | ⟨b, rungB, hreadB, -⟩⟩ := m.readAt_cases m.delegate
    · rw [hreadB]
      exact .single (.draw generator)
    · have hnumber : HasNumberAt m m.delegate := hasNumberAt_of_readAt hreadB
      rw [hreadB]
      dsimp only
      refine .head (.draw generator) ?_
      obtain ⟨generator', hreadA | ⟨a, rungA, hreadA, -⟩⟩ :=
        { m with generator }.readAt_cases (m.delegate + 1)
      · rw [hreadA]
        exact .single (.draw generator')
      · rw [hreadA]
        refine .head (.draw generator') ?_
        have hnumber' : HasNumberAt { m with generator := generator' } m.delegate := hnumber
        dsimp only
        split
        · exact writes_assignAt hnumber' _ (by simp)
        · split
          case h_1 hbetween =>
            -- The element that a sum brings along is not the void, which follows no element.
            refine writes_assignAt hnumber' _ fun hvoid => ?_
            rw [Relation.between_void (.inr (Option.some.inj hvoid))] at hbetween
            cases hbetween
          · exact writes_assignAt hnumber' _ (by simp)
          · exact writes_assignAt hnumber' _ (by simp)
          · exact writes_assignAt hnumber' _ (by simp)
          · exact .single (.record rfl)

/-- The commands that work on the rung at the delegate, or on nothing. -/
theorem writes_dispatch (m : Machine) {command : Command} (hmarch : command.isMarch = false)
    (hother : command ∉ [Command.rise, .fall, .like, .listen]) :
    Writes m.delegate m (m.dispatch command).2 := by
  cases command with
  | few | many | tomorrow | heaven => exact .refl
  | promote | demote | blossom => cases hmarch
  | rise | fall | like | listen => exact absurd hother (by decide)
  | speak => exact m.writes_speak
  | count => exact m.writes_count
  | create | destroy | fear | love => exact m.writes_advanceOperand _
  | become => exact m.writes_become
  | negative => exact m.writes_negative
  | operate => exact m.writes_operate

/-! ## What is not written to -/

/-- Neither the tape nor the variables have been written to, but for the rung at an index and its
    variable.  No variable is new, and the cursors are where they were. -/
structure Spares (index : Nat) (m m' : Machine) : Prop where
  tape : ∀ i, i ≠ index → m'.tape[i]? = m.tape[i]?
  names : ∀ name, m'.nameAt? index = some name → m.nameAt? index = some name
  vars : ∀ name, m.nameAt? index ≠ some name → m'.vars.get? name = m.vars.get? name
  new : ∀ name, m.vars.get? name = none → m'.vars.get? name = none
  bureaucrat : m'.bureaucrat = m.bureaucrat
  delegate : m'.delegate = m.delegate

/-- What leaves the tape, the variables and the cursors alone spares them. -/
theorem spares_of_eq (htape : m'.tape = m.tape) (hvars : m'.vars = m.vars)
    (hbureaucrat : m'.bureaucrat = m.bureaucrat) (hdelegate : m'.delegate = m.delegate) :
    Spares index m m' where
  tape i _ := by rw [htape]
  names name h := by rwa [nameAt?, htape] at h
  vars name _ := by rw [hvars]
  new name h := by rwa [hvars]
  bureaucrat := hbureaucrat
  delegate := hdelegate

/-- What is spared twice is spared. -/
theorem Spares.trans {m₁ m₂ m₃ : Machine} (h : Spares index m₁ m₂) (h' : Spares index m₂ m₃) :
    Spares index m₁ m₃ where
  tape i hi := (h'.tape i hi).trans (h.tape i hi)
  names name hname := h.names name (h'.names name hname)
  vars name hname := (h'.vars name fun hnew => hname (h.names name hnew)).trans (h.vars name hname)
  new name hname := h'.new name (h.new name hname)
  bureaucrat := h'.bureaucrat.trans h.bureaucrat
  delegate := h'.delegate.trans h.delegate

/-- A rung that becomes a variable has been the same variable before. -/
theorem variableName?_of_change {old new : Rung} (h : old.Change new) {name : String}
    (hname : new.variableName? = some name) : old.variableName? = some name := by
  have hcell := Rung.variableName?_eq_some hname
  cases h with
  | overwrite _ _ | ascend _ => cases hcell
  | advance _ _ => exact hname

/-- The variable on the rung is none of the others. -/
theorem ne_of_nameAt? {name other : String} (h : m.nameAt? index = some name)
    (hother : m.nameAt? index ≠ some other) : name ≠ other := by
  rintro rfl
  exact hother h

/-- A variable with a number is none that is not there. -/
theorem ne_of_value? {vars : Variables} {name other : String}
    (h : (vars.value? name).isSome = true) (hother : vars.get? other = none) : name ≠ other := by
  rintro rfl
  rw [Variables.value?, hother] at h
  cases h

/-- A write spares everything but the rung and its variable. -/
theorem Write.spares (h : Write index m m') : Spares index m m' := by
  cases h with
  | record _ | draw _ => exact spares_of_eq rfl rfl rfl rfl
  | @change old new hold hchange =>
    refine ⟨fun i hi => List.getElem?_set_ne (Ne.symm hi), fun name hname => ?_, fun _ _ => rfl,
      fun _ h => h, rfl, rfl⟩
    -- The rung at the index is what has become of the old one, which names the same variable.
    obtain ⟨rung, hrung, hcell⟩ := nameAt?_eq_some_iff.mp hname
    have hlt := (List.getElem?_eq_some_iff.mp hold).1
    obtain rfl := Option.some.inj ((List.getElem?_set_self hlt).symm.trans hrung)
    rw [nameAt?, hold, Option.bind_some]
    refine variableName?_of_change hchange ?_
    rw [Rung.variableName?, hcell]
  | @assign name hname hnumber value source _ =>
    exact ⟨fun _ _ => rfl, fun _ h => h,
      fun other hother => by rw [Variables.get?_assign, if_neg (ne_of_nameAt? hname hother)],
      fun other hother => by rwa [Variables.get?_assign, if_neg (ne_of_value? hnumber hother)],
      rfl, rfl⟩
  | @advance name hname hnumber relation =>
    exact ⟨fun _ _ => rfl, fun _ h => h,
      fun other hother => Variables.get?_advance_of_ne _ (ne_of_nameAt? hname hother) _,
      fun other hother => by
        rwa [Variables.get?_advance_of_ne _ (ne_of_value? hnumber hother)],
      rfl, rfl⟩

/-- Writes one after the other do so too. -/
theorem Writes.spares (h : Writes index m m') : Spares index m m' := by
  induction h with
  | refl => exact spares_of_eq rfl rfl rfl rfl
  | tail _ hwrite ih => exact ih.trans hwrite.spares

end Machine

end Verse
