import Verse.Proofs.Numeric.Plain
import Verse.Proofs.Variables
import Verse.Trace.Record

/-!
# The marks in a dump

Of the rows of a dump some are marked: in the table of the tape those that the cursors are on, and
in the table of the variables the rung of a block that is being executed.  The marks are read off
the cells, as they are drawn.

* `filter_mapIdx`           the rows that belong to one index
* `Snapshot.showsTape`      the table of a tape, if the cursors are where they can be in a run
* `filter_variableTable`    the marked rows of the variables
-/

namespace Verse

/-- A test that only one index passes finds what the list has there. -/
theorem filter_mapIdx {α β : Type} {test : β → Bool} {f : Nat → α → β} {index : Nat}
    (h : ∀ i a, test (f i a) = (i == index)) (list : List α) :
    (list.mapIdx f).filter test = (list[index]?).toList.map (f index) := by
  -- What comes after the first element is numbered from one, so `f` and the index change.
  induction list generalizing f index with
  | nil => rfl
  | cons a list ih =>
    rw [List.mapIdx_cons]
    cases index with
    | zero =>
      have hlater : (list.mapIdx fun i => f (i + 1)).filter test = [] := by
        rw [List.filter_eq_nil_iff]
        intro b hb
        obtain ⟨i, hi, rfl⟩ := List.mem_mapIdx.mp hb
        simp [h]
      rw [List.filter_cons_of_pos (by simp [h]), hlater]
      rfl
    | succ index =>
      have hlater : ∀ i a, test (f (i + 1) a) = (i == index) := fun i a => by simp [h]
      rw [List.filter_cons_of_neg (by simp [h]), ih hlater]
      rfl

/-! ## The tape -/

namespace TapeRow

/-- Whether the cells of a row have the mark of the delegate. -/
def marksDelegate (cells : List String) : Bool :=
  cells.head?.any fun marks => "D>".toList.isPrefixOf marks.toList

/-- Whether the cells of a row have the mark of the bureaucrat. -/
def marksBureaucrat (cells : List String) : Bool :=
  cells.head?.any fun marks => "B>".toList.isSuffixOf marks.toList

/-- Whether the cells of a row say that the tape has ended. -/
def marksEnd (cells : List String) : Bool :=
  cells[4]? == some "END"

variable (vars : Variables) (row : TapeRow)

/-- The mark of the delegate is in its row. -/
theorem marksDelegate_cells : marksDelegate (row.cells vars) = row.delegate := by
  obtain ⟨delegate, bureaucrat, index, rung⟩ := row
  cases delegate <;> cases bureaucrat <;> simp [marksDelegate, cells, marks,
    List.isPrefixOf]

/-- The mark of the bureaucrat is in its row. -/
theorem marksBureaucrat_cells : marksBureaucrat (row.cells vars) = row.bureaucrat := by
  obtain ⟨delegate, bureaucrat, index, rung⟩ := row
  cases delegate <;> cases bureaucrat <;> simp [marksBureaucrat, cells, marks,
    List.isSuffixOf, List.isPrefixOf]

/-- No kind of cell is called an end. -/
theorem marksEnd_cells : marksEnd (row.cells vars) = row.rung.isNone := by
  obtain ⟨delegate, bureaucrat, index, _ | ⟨position, name, element, cell⟩⟩ := row
  · rfl
  · cases cell <;> rfl

/-- The second cell has the index. -/
theorem getElem?_one_cells : (row.cells vars)[1]? = some (toString row.index) := rfl

/-- The row of a rung of the tape. -/
def ofRung (scene : Snapshot) (index : Nat) (rung : Rung) : TapeRow where
  delegate := index == scene.delegate
  bureaucrat := index == scene.bureaucrat
  index
  rung := some rung

/-- The row of the end of the tape. -/
def ofEnd (scene : Snapshot) : TapeRow where
  delegate := false
  bureaucrat := true
  index := scene.tape.length
  rung := none

/-- The row behind those of the rungs, if the bureaucrat is there. -/
def behind (scene : Snapshot) : List TapeRow :=
  if scene.tape.length ≤ scene.bureaucrat then [ofEnd scene] else []

/-- The rows of a tape are those of its rungs, from the last to the first, and the one behind. -/
theorem ofSnapshot_eq (scene : Snapshot) :
    ofSnapshot scene = (scene.tape.mapIdx (ofRung scene)).reverse ++ behind scene := rfl

/-- A test that the end does not pass finds nothing behind the rungs. -/
theorem filter_behind {test : TapeRow → Bool} {scene : Snapshot}
    (h : test (ofEnd scene) = false) : (behind scene).filter test = [] := by
  rw [List.filter_eq_nil_iff]
  intro row hrow
  unfold behind at hrow
  split at hrow
  · obtain rfl := List.mem_singleton.mp hrow
    rw [h]
    exact Bool.false_ne_true
  · cases hrow

end TapeRow

/-- The rows of the tape whose cells pass a test. -/
theorem filter_tapeTable {test : List String → Bool} {test' : TapeRow → Bool} (scene : Snapshot)
    (h : ∀ row : TapeRow, test (row.cells scene.vars) = test' row) :
    (tapeTable scene).rows.filter test =
      ((scene.tape.mapIdx (TapeRow.ofRung scene)).filter test').reverse.map
          (TapeRow.cells scene.vars) ++
        ((TapeRow.behind scene).filter test').map (TapeRow.cells scene.vars) := by
  have htest : test ∘ TapeRow.cells scene.vars = test' := funext h
  rw [tapeTable, TapeRow.ofSnapshot_eq, List.filter_map, htest, List.filter_append,
    List.filter_reverse, List.map_append]

/-- The table of a tape shows where the cursors are. -/
structure Snapshot.ShowsTape (scene : Snapshot) : Prop where
  /-- Every index of the tape has one row, the last index first. -/
  indices : ((tapeTable scene).rows.filter (!TapeRow.marksEnd ·)).map (·[1]?) =
    (List.range scene.tape.length).reverse.map fun index => some (toString index)
  /-- One row has the mark of the bureaucrat, and shows the index that it is at. -/
  bureaucrat : ∃ cells, (tapeTable scene).rows.filter TapeRow.marksBureaucrat = [cells] ∧
    cells[1]? = some (toString scene.bureaucrat)
  /-- One row has the mark of the delegate, and shows the index that it is at. -/
  delegate : ∃ cells, (tapeTable scene).rows.filter TapeRow.marksDelegate = [cells] ∧
    cells[1]? = some (toString scene.delegate) ∧ TapeRow.marksEnd cells = false
  /-- There is another row, with the bureaucrat, if it is at the end of the tape. -/
  ending : (tapeTable scene).rows.filter TapeRow.marksEnd =
    if scene.bureaucrat = scene.tape.length then
      [["   B>", toString scene.tape.length, "", "", "END", "", ""]]
    else []

namespace Snapshot

variable {scene : Snapshot}

/-- The end is shown just if the bureaucrat is there, as no rung is taken for it. -/
theorem filter_marksEnd (hbureaucrat : scene.bureaucrat ≤ scene.tape.length) :
    (tapeTable scene).rows.filter TapeRow.marksEnd =
      if scene.bureaucrat = scene.tape.length then
        [["   B>", toString scene.tape.length, "", "", "END", "", ""]]
      else [] := by
  have hrungs : (scene.tape.mapIdx (TapeRow.ofRung scene)).filter (·.rung.isNone) = [] := by
    rw [List.filter_eq_nil_iff]
    intro row hrow
    obtain ⟨i, hi, rfl⟩ := List.mem_mapIdx.mp hrow
    simp [TapeRow.ofRung]
  rw [filter_tapeTable scene (TapeRow.marksEnd_cells scene.vars), hrungs, TapeRow.behind]
  by_cases hend : scene.bureaucrat = scene.tape.length
  · rw [if_pos hend, if_pos (Nat.le_of_eq hend.symm)]
    rfl
  · rw [if_neg hend, if_neg (by omega)]
    rfl

/-- Without the end, the rows have the indices of the tape in descending order. -/
theorem map_index_not_marksEnd :
    ((tapeTable scene).rows.filter (!TapeRow.marksEnd ·)).map (·[1]?) =
      (List.range scene.tape.length).reverse.map fun index => some (toString index) := by
  have hrungs : (scene.tape.mapIdx (TapeRow.ofRung scene)).filter (·.rung.isSome) =
      scene.tape.mapIdx (TapeRow.ofRung scene) := by
    rw [List.filter_eq_self]
    intro row hrow
    obtain ⟨i, hi, rfl⟩ := List.mem_mapIdx.mp hrow
    rfl
  have hindices : (scene.tape.mapIdx (TapeRow.ofRung scene)).map
      ((·[1]?) ∘ TapeRow.cells scene.vars) =
        (List.range scene.tape.length).map fun index => some (toString index) := by
    apply List.ext_getElem
    · simp
    · intro i hi hi'
      simp [TapeRow.getElem?_one_cells, TapeRow.ofRung]
  have htest (row : TapeRow) : (!TapeRow.marksEnd (row.cells scene.vars)) = row.rung.isSome := by
    rw [TapeRow.marksEnd_cells, Option.not_isNone]
  rw [@filter_tapeTable (!TapeRow.marksEnd ·) (·.rung.isSome) scene htest, hrungs,
    TapeRow.filter_behind rfl, List.map_nil, List.append_nil, List.map_map, List.map_reverse,
    hindices, List.map_reverse]

/-- The row of the index that a cursor is at. -/
theorem filter_tapeTable_index {test : List String → Bool} {test' : TapeRow → Bool} {index : Nat}
    {rung : Rung} (hrung : scene.tape[index]? = some rung)
    (h : ∀ row : TapeRow, test (row.cells scene.vars) = test' row)
    (hindex : ∀ i rung, test' (TapeRow.ofRung scene i rung) = (i == index))
    (hbehind : (TapeRow.behind scene).filter test' = []) :
    (tapeTable scene).rows.filter test = [(TapeRow.ofRung scene index rung).cells scene.vars] := by
  rw [filter_tapeTable scene h, filter_mapIdx hindex, hbehind, hrung]
  rfl

/-- Wherever the cursors can be in a run, the table of the tape shows it. -/
theorem showsTape (hdelegate : scene.delegate < scene.tape.length)
    (hbureaucrat : scene.bureaucrat ≤ scene.tape.length) : scene.ShowsTape where
  indices := map_index_not_marksEnd
  ending := filter_marksEnd hbureaucrat
  delegate := by
    refine ⟨_, filter_tapeTable_index (List.getElem?_eq_getElem hdelegate)
      (TapeRow.marksDelegate_cells scene.vars) (fun _ _ => rfl) (TapeRow.filter_behind rfl),
      rfl, ?_⟩
    rw [TapeRow.marksEnd_cells]
    rfl
  bureaucrat := by
    -- The bureaucrat is on a rung, or behind all of them.
    obtain hlt | heq := Nat.lt_or_eq_of_le hbureaucrat
    · have hbehind : (TapeRow.behind scene).filter (·.bureaucrat) = [] := by
        rw [TapeRow.behind, if_neg (by omega)]
        rfl
      exact ⟨_, filter_tapeTable_index (List.getElem?_eq_getElem hlt)
        (TapeRow.marksBureaucrat_cells scene.vars) (fun _ _ => rfl) hbehind, rfl⟩
    · -- There is no rung at the end of the tape, but a row of its own.
      have hnone : scene.tape[scene.bureaucrat]? = none :=
        List.getElem?_eq_none (Nat.le_of_eq heq.symm)
      refine ⟨(TapeRow.ofEnd scene).cells scene.vars, ?_, ?_⟩
      · rw [filter_tapeTable scene (TapeRow.marksBureaucrat_cells scene.vars),
          filter_mapIdx (fun _ _ => rfl), hnone, TapeRow.behind, if_pos (Nat.le_of_eq heq.symm)]
        rfl
      · rw [TapeRow.getElem?_one_cells, heq]
        rfl

end Snapshot

/-! ## The variables -/

namespace VariableRow

/-- Whether the cells of a row are those of a rung with the mark of the one being executed. -/
def marksExecuting (cells : List String) : Bool :=
  cells.head?.any (fun text => "* --> ".toList.isPrefixOf text.toList) && cells[2]? == some ""

/-- Whether a row is that of the rung being executed. -/
def isExecuting : VariableRow → Bool
  | .binding _ _ => false
  | .blockRung executing _ _ => executing

/-- The digits of a number do not begin with the mark. -/
theorem isPrefixOf_toString (index : Nat) :
    "* --> ".toList.isPrefixOf (toString index).toList = false := by
  rw [Bool.eq_false_iff, ne_eq, List.isPrefixOf_iff_prefix]
  intro hmark
  have hmem : '*' ∈ (toString index).toList := hmark.subset (by decide)
  exact absurd (Numeric.isDigit_toString index _ hmem) (by decide)

/-- Only the rungs of blocks are shown without an element. -/
theorem marksExecuting_cells (row : VariableRow) : marksExecuting row.cells = row.isExecuting := by
  cases row with
  | binding name v =>
    obtain ⟨element, binding⟩ := v
    cases element <;> simp [marksExecuting, cells, isExecuting, Element.name]
  | blockRung executing index rung =>
    cases executing with
    | true => simp [marksExecuting, cells, isExecuting, List.isPrefixOf]
    | false =>
      have hcell : (if false = true then "* --> " else "") ++ toString index = toString index :=
        String.empty_append
      rw [marksExecuting, cells, hcell, List.head?_cons, Option.any_some, isPrefixOf_toString,
        Bool.false_and, isExecuting]

/-- A variable that is not executed has no marked rows. -/
theorem filter_ofVariable_of_ne {frame : Option Frame} {name : String}
    (h : ∀ index, frame ≠ some ⟨name, index⟩) (v : Variable) :
    (ofVariable frame name v).filter isExecuting = [] := by
  rw [ofVariable, List.filter_cons_of_neg (by simp [isExecuting]), List.filter_eq_nil_iff]
  intro row hrow
  obtain ⟨i, hi, rfl⟩ := List.mem_mapIdx.mp (List.mem_reverse.mp hrow)
  simp [isExecuting, h i]

/-- Of the rows of a variable that is executed, that of the rung is marked, if its block has such a
    rung. -/
theorem filter_ofVariable (frame : Frame) (v : Variable) :
    (ofVariable (some frame) frame.name v).filter isExecuting =
      (v.block?.bind (·[frame.index]?)).toList.map (.blockRung true frame.index) := by
  have hmarked : ∀ i rung,
      isExecuting (.blockRung (some frame == some ⟨frame.name, i⟩) i rung) =
        (i == frame.index) := by
    intro i rung
    rw [isExecuting, Option.some_beq_some, Bool.eq_iff_iff, beq_iff_eq, beq_iff_eq, Frame.mk.injEq]
    exact ⟨fun h => h.2.symm, fun h => ⟨rfl, h.symm⟩⟩
  rw [ofVariable, List.filter_cons_of_neg (by simp [isExecuting]), List.filter_reverse,
    filter_mapIdx hmarked]
  cases hblock : v.block? with
  | none => rfl
  | some block => cases hrung : block[frame.index]? <;> simp [hrung]

end VariableRow

/-- The marked rows of the table of the variables. -/
theorem filter_variableTable_eq (vars : Variables) (frame : Option Frame) :
    (variableTable vars frame).rows.filter VariableRow.marksExecuting =
      ((VariableRow.ofVariables vars frame).filter VariableRow.isExecuting).map
        VariableRow.cells := by
  have htest : VariableRow.marksExecuting ∘ VariableRow.cells = VariableRow.isExecuting :=
    funext VariableRow.marksExecuting_cells
  rw [variableTable, List.filter_map, htest]

/-- Nothing is marked while a rung of the tape is executed. -/
theorem filter_variableTable_none (vars : Variables) :
    (variableTable vars none).rows.filter VariableRow.marksExecuting = [] := by
  rw [filter_variableTable_eq, VariableRow.ofVariables, List.filter_flatMap,
    List.flatMap_eq_nil_iff.mpr, List.map_nil]
  intro item _
  exact VariableRow.filter_ofVariable_of_ne (fun _ => (Option.some_ne_none _).symm) item.2

/-- In the frame of a block that rung is marked that the variable has at the index of the frame. -/
theorem filter_variableTable (vars : Variables) (frame : Frame) :
    (variableTable vars (some frame)).rows.filter VariableRow.marksExecuting =
      ((vars.block? frame.name).bind (·[frame.index]?)).toList.map fun rung =>
        ["* --> " ++ toString frame.index, rung.display, ""] := by
  have hother : ∀ item : String × Variable, item.1 ≠ frame.name →
      (VariableRow.ofVariable (some frame) item.1 item.2).filter VariableRow.isExecuting = [] := by
    intro item hname
    refine VariableRow.filter_ofVariable_of_ne (fun index hframe => hname ?_) item.2
    rw [Option.some.inj hframe]
  -- What is left are the rows of the variable that the frame names, if there is one.
  rw [filter_variableTable_eq, VariableRow.ofVariables, List.filter_flatMap,
    vars.flatMap_toList hother, Variables.block?]
  cases hvar : vars.get? frame.name with
  | none => rfl
  | some v =>
    simp only [Option.toList_some, List.flatMap_singleton, VariableRow.filter_ofVariable,
      Option.bind_some, List.map_map]
    rfl

end Verse
