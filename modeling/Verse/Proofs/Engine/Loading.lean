import Verse.Proofs.Engine.Editing
import Verse.Proofs.Engine.History

/-!
# Loading and the order of the cursors

Runs leave the cursors in order, and edits keep them so.  Loading does neither: it puts another
tape under the cursors and leaves them where they are, so that the bureaucrat may be beyond the
end of the new one until the program is run.  Nothing else that can be done to an engine breaks
the order.

* `Engine.overshoot`                       how far the bureaucrat is beyond the end of the tape
* `Touches.overshoot_eq`                   edits and settings do not change it
* `overshoot_of_run`                       runs leave none
* `out_of_order_iff_stranded`              hence it comes from loading
-/

namespace Verse

namespace Engine

/-- How many places the bureaucrat is beyond the end of the tape. -/
def overshoot (e : Engine) : Nat :=
  e.machine.bureaucrat - e.machine.tape.length

/-- An edit or a setting.  Both leave the program alone and do not run it. -/
inductive Touches : Engine → Engine → Prop where
  | edit {e e' : Engine} {edit : TapeEdit} (h : e.edit? edit = some e') : Touches e e'
  | setInput (e : Engine) (input : Input) : Touches e (e.setInput input)
  | setTraceSink (e : Engine) (sink : Sink) : Touches e (e.setTraceSink sink)
  | toggleTrace (e : Engine) : Touches e e.toggleTrace

/-- A program too short to reach the bureaucrat has been loaded, and there have been nothing but
    edits and settings since. -/
def Stranded (e : Engine) : Prop :=
  ∃ loaded earlier rungs, After loaded earlier ∧ rungs.length < earlier.machine.bureaucrat ∧
    Relation.ReflTransGen Touches (earlier.loadRungs rungs) e

variable {e e' : Engine}

/-! ## Edits -/

/-- Putting in a rung is an edit. -/
theorem touches_of_insert? {rung : Rung} {index : Nat} (h : e.insert? rung index = some e') :
    Touches e e' := by
  have hedit : e.edit? (.insert rung index) = some e' := h
  exact .edit hedit

/-- Taking out a rung is an edit. -/
theorem touches_of_erase? {rung : Rung} {index : Nat} (h : e.erase? index = some (rung, e')) :
    Touches e e' := by
  have hedit : e.edit? (.erase index) = some e' := by rw [edit?, h, Option.map_some]
  exact .edit hedit

/-- An edit makes the tape longer or shorter before the bureaucrat if that is beyond its end, so
    that the bureaucrat stays as far beyond. -/
theorem overshoot_displaced {edit : TapeEdit} (hfits : edit.Fits e.machine.tape.length) :
    (e.displaced edit).overshoot = e.overshoot := by
  simp only [overshoot, displaced, TapeEdit.length_on hfits]
  cases edit with
  | insert rung index =>
    have hle : index ≤ e.machine.tape.length := hfits
    simp only [TapeEdit.shift, if_pos hle]
    split <;> omega
  | erase index =>
    have hlt : index < e.machine.tape.length := hfits
    simp only [TapeEdit.shift, if_pos hlt]
    split <;> omega

/-- Edits and settings leave the bureaucrat as far beyond the end as it is. -/
theorem Touches.overshoot_eq (h : Touches e e') : e'.overshoot = e.overshoot := by
  cases h with
  | edit hedit =>
    obtain ⟨hfits, rfl⟩ := edit?_eq_some_iff.mp hedit
    exact overshoot_displaced hfits
  | setInput _ | setTraceSink _ | toggleTrace => rfl

/-- Edits and settings do not bring the delegate ahead of the bureaucrat. -/
theorem Touches.delegate_le (h : Touches e e')
    (hle : e.machine.delegate ≤ e.machine.bureaucrat) :
    e'.machine.delegate ≤ e'.machine.bureaucrat := by
  cases h with
  | @edit _ edit hedit =>
    obtain ⟨-, rfl⟩ := edit?_eq_some_iff.mp hedit
    exact edit.shift_le_shift hle
  | setInput _ | setTraceSink _ | toggleTrace => exact hle

/-- Any number of edits and settings. -/
theorem overshoot_of_touches (h : Relation.ReflTransGen Touches e e') :
    e'.overshoot = e.overshoot := by
  induction h with
  | refl => rfl
  | tail _ htouches ih => exact htouches.overshoot_eq.trans ih

/-! ## Runs and loads -/

/-- A run leaves the cursors in order, whatever they were before it. -/
theorem inOrder_of_run {fuel : Nat} {report : RunReport}
    (h : e.run fuel = .finished report e') : e'.machine.InOrder := by
  obtain ⟨program, reason, m, -, hrun, hshows⟩ := shows_of_run h
  obtain ⟨n, hend⟩ := Machine.exists_pointAt_of_run hrun
  have hordered := e.machine.pointAt_ordered program n
  rw [hend] at hordered
  rw [hshows.machine]
  exact ⟨hordered.1.delegate_le, hordered.1.bureaucrat_le⟩

/-- With the delegate behind the bureaucrat, only the end of the tape can be overstepped. -/
theorem inOrder_iff_overshoot (hle : e.machine.delegate ≤ e.machine.bureaucrat) :
    e.machine.InOrder ↔ e.overshoot = 0 := by
  rw [overshoot]
  refine ⟨fun h => Nat.sub_eq_zero_of_le h.bureaucrat_le, fun h => ⟨hle, ?_⟩⟩
  omega

/-- A run leaves no overshoot. -/
theorem overshoot_of_run {fuel : Nat} {report : RunReport}
    (h : e.run fuel = .finished report e') : e'.overshoot = 0 := by
  have horder := inOrder_of_run h
  exact (inOrder_iff_overshoot horder.delegate_le).mp horder

/-- A load leaves the bureaucrat where it is, over a tape of its own length. -/
theorem overshoot_loadRungs (e : Engine) (rungs : List Rung) :
    (e.loadRungs rungs).overshoot = e.machine.bureaucrat - rungs.length := by
  simp only [overshoot, loadRungs, List.length_reverse]

/-! ## Histories -/

/-- Whatever is done to an engine, the delegate does not get ahead of the bureaucrat. -/
theorem delegate_le_of_after {loaded : Option (List Rung)} (h : After loaded e) :
    e.machine.delegate ≤ e.machine.bureaucrat := by
  -- The induction is on the history.  Loads and settings do not move the cursors, runs and edits
  -- keep them in order.
  induction h with
  | built => exact Nat.le_refl 0
  | load _ _ _ ih | loadRungs _ _ ih => exact ih
  | setInput _ _ ih | setTraceSink _ _ ih | toggleTrace _ ih => exact ih
  | run _ hrun _ => exact (inOrder_of_run hrun).delegate_le
  | insert _ hinsert ih => exact (touches_of_insert? hinsert).delegate_le ih
  | erase _ herase ih => exact (touches_of_erase? herase).delegate_le ih

/-- An edit or a setting neither strands the bureaucrat nor brings it back. -/
theorem stranded_of_touches (htouches : Touches e e') (h : e.overshoot ≠ 0 → e.Stranded)
    (hover : e'.overshoot ≠ 0) : e'.Stranded := by
  rw [htouches.overshoot_eq] at hover
  obtain ⟨loaded, earlier, rungs, hafter, hlt, hsince⟩ := h hover
  exact ⟨loaded, earlier, rungs, hafter, hlt, hsince.tail htouches⟩

/-- A load that leaves the bureaucrat beyond the end has stranded it. -/
theorem stranded_loadRungs {loaded : Option (List Rung)} (h : After loaded e) (rungs : List Rung)
    (hover : (e.loadRungs rungs).overshoot ≠ 0) : (e.loadRungs rungs).Stranded := by
  rw [overshoot_loadRungs] at hover
  exact ⟨loaded, e, rungs, h, by omega, .refl⟩

/-- If the bureaucrat is beyond the end, a load has left it there, and there was no run since. -/
theorem stranded_of_overshoot {loaded : Option (List Rung)} (h : After loaded e) :
    e.overshoot ≠ 0 → e.Stranded := by
  -- Only a run and a load change the overshoot: the one ends it, the other begins it.
  induction h with
  | built => exact fun hover => absurd rfl hover
  | load hafter lexicon tokens _ => exact stranded_loadRungs hafter _
  | loadRungs hafter rungs _ => exact stranded_loadRungs hafter rungs
  | run _ hrun _ => exact fun hover => absurd (overshoot_of_run hrun) hover
  | setInput _ input ih => exact stranded_of_touches (.setInput _ input) ih
  | setTraceSink _ sink ih => exact stranded_of_touches (.setTraceSink _ sink) ih
  | toggleTrace _ ih => exact stranded_of_touches (.toggleTrace _) ih
  | insert _ hinsert ih => exact stranded_of_touches (touches_of_insert? hinsert) ih
  | erase _ herase ih => exact stranded_of_touches (touches_of_erase? herase) ih

/-- After any history of loads, runs, edits and settings on a new engine, the delegate is not
    ahead of the bureaucrat, and the bureaucrat is beyond the end of the tape if and only if a
    program was loaded that is too short to reach it, with nothing but edits and settings since.
    So a run leaves the cursors in order whatever was before it, an edit keeps them as they are,
    and a load leaves them in order if and only if the new program is long enough. -/
theorem out_of_order_iff_stranded {loaded : Option (List Rung)} {e : Engine}
    (h : After loaded e) :
    e.machine.delegate ≤ e.machine.bureaucrat ∧
    (¬ e.machine.InOrder ↔ e.Stranded) ∧
    (∀ fuel report e', e.run fuel = .finished report e' → e'.machine.InOrder) ∧
    (∀ edit e', e.edit? edit = some e' → (e'.machine.InOrder ↔ e.machine.InOrder)) ∧
    (∀ rungs, (e.loadRungs rungs).machine.InOrder ↔ e.machine.bureaucrat ≤ rungs.length) ∧
    ∀ lexicon tokens, (e.load lexicon tokens).machine.InOrder ↔
      e.machine.bureaucrat ≤ tokens.length := by
  have hle := delegate_le_of_after h
  have hload : ∀ rungs, (e.loadRungs rungs).machine.InOrder ↔
      e.machine.bureaucrat ≤ rungs.length := by
    intro rungs
    rw [inOrder_iff_overshoot (e := e.loadRungs rungs) hle, overshoot_loadRungs]
    omega
  refine ⟨hle, ⟨fun hno => ?_, ?_⟩, fun fuel report e' hrun => inOrder_of_run hrun,
    fun edit e' hedit => ?_, hload, fun lexicon tokens => ?_⟩
  · -- Out of order, and so beyond the end.
    rw [inOrder_iff_overshoot hle] at hno
    exact stranded_of_overshoot h hno
  · -- Nothing but edits and settings since the load, so that the overshoot is still there.
    rintro ⟨loaded₀, earlier, rungs, -, hlt, hsince⟩
    have hover := overshoot_of_touches hsince
    rw [overshoot_loadRungs] at hover
    rw [inOrder_iff_overshoot hle]
    omega
  · have htouches := Touches.edit hedit
    rw [inOrder_iff_overshoot hle, inOrder_iff_overshoot (htouches.delegate_le hle),
      htouches.overshoot_eq]
  · rw [load, hload, List.length_map]

/-- A rung that does nothing but be passed. -/
def five : Rung :=
  { position := .source ⟨1, 1⟩, name := "five", element := .earth, cell := .literal 5.0 }

/-- A program of one rung is run, and an empty one is loaded after that.  The bureaucrat is still
    where the run has ended, and there is no such place any more. -/
theorem loading_an_empty_program_strands_the_bureaucrat :
    ∃ report left, ((ofSeed 0).loadRungs [five]).run 9 = .finished report left ∧
      After (some []) (left.loadRungs []) ∧
      (left.loadRungs []).machine.bureaucrat = 1 ∧ (left.loadRungs []).machine.tape = [] ∧
      ¬ (left.loadRungs []).machine.InOrder := by
  obtain ⟨report, left, hrun, hbureaucrat⟩ : ∃ report left,
      ((ofSeed 0).loadRungs [five]).run 9 = .finished report left ∧
        left.machine.bureaucrat = 1 := ⟨_, _, rfl, rfl⟩
  have hafter := (((After.built (.ofSeed 0) .off {}).loadRungs [five]).run hrun).loadRungs []
  refine ⟨report, left, hrun, hafter, hbureaucrat, rfl, fun horder => ?_⟩
  -- The load has left the bureaucrat alone.
  have hle : left.machine.bureaucrat ≤ 0 := horder.bureaucrat_le
  omega

/-- A program of the same length leaves the cursors in order, and so does a run. -/
theorem out_of_order_iff_stranded_five :
    ∃ report left, ((ofSeed 0).loadRungs [five]).run 9 = .finished report left ∧
      left.machine.bureaucrat = 1 ∧ left.machine.InOrder ∧
      (left.loadRungs [five]).machine.InOrder ∧ ¬ (left.loadRungs []).machine.InOrder := by
  obtain ⟨report, left, hrun, hbureaucrat⟩ : ∃ report left,
      ((ofSeed 0).loadRungs [five]).run 9 = .finished report left ∧
        left.machine.bureaucrat = 1 := ⟨_, _, rfl, rfl⟩
  have hafter := (After.built (.ofSeed 0) .off {}).loadRungs [five]
  obtain ⟨-, -, hleft, -⟩ := out_of_order_iff_stranded hafter
  obtain ⟨-, -, -, -, hload, -⟩ := out_of_order_iff_stranded (hafter.run hrun)
  refine ⟨report, left, hrun, hbureaucrat, hleft 9 report left hrun, ?_, ?_⟩
  · exact (hload [five]).mpr (Nat.le_of_eq hbureaucrat)
  · rw [hload, hbureaucrat]
    decide

end Engine

end Verse
