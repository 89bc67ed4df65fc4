import Mathlib.Data.List.Forall2
import Verse.Proofs.Text.Split
import Verse.Trace.Table

/-!
# What a drawn table shows

A drawn table shows the titles of its columns, a line across, its rows one below the other, and
another line across.  What each line of it holds is said here without the widths of the columns:
the texts of the cells between bars, with as many blanks around them as it takes.

* `Table.Drawn`         a text that shows a table
* `Table.drawn_render`  tables are drawn like that
-/

namespace Verse

/-- A text with blanks on both sides, at least one on each. -/
def IsPadded (text : List Char) (drawn : String) : Prop :=
  ∃ before behind, drawn =
    String.ofList (List.replicate (before + 1) ' ' ++ text ++ List.replicate (behind + 1) ' ')

/-- The text in a cell is set off by blanks, whichever side it goes to. -/
theorem Column.isPadded_line (column : Column) (width : Nat) (text : List Char) :
    IsPadded text (column.line width text) := by
  -- The blanks that fill a column up go to one side of the text.
  by_cases hright : column.right = true
  · refine ⟨width - Text.shownWidth text, 0, ?_⟩
    rw [Column.line, if_pos hright, Text.alignRight, Text.filling]
    apply String.toList_injective
    simp [List.replicate_succ]
  · refine ⟨0, width - Text.shownWidth text, ?_⟩
    rw [Column.line, if_neg hright, Text.alignLeft, Text.filling]
    apply String.toList_injective
    simp [List.replicate_succ']

/-! ## The lines of a cell -/

namespace Text

/-- A text without a line feed is its only line, unless it is empty and has none. -/
theorem lines_of_not_newline {text : List Char} (h : '\n' ∉ text) :
    lines text = if text.isEmpty then [] else [text] := by
  rw [lines, split_eq_splitOnP, List.splitOnP_eq_singleton]
  · rfl
  · intro c hc
    rw [beq_eq_false_iff_ne]
    rintro rfl
    exact h hc

end Text

/-! ## Heights -/

/-- The greatest of some numbers and a bound is no less than any of them. -/
theorem le_foldl_max (numbers : List Nat) (bound : Nat) :
    bound ≤ numbers.foldl max bound ∧ ∀ n ∈ numbers, n ≤ numbers.foldl max bound := by
  induction numbers generalizing bound with
  | nil => exact ⟨Nat.le_refl _, List.forall_mem_nil _⟩
  | cons number numbers ih =>
    obtain ⟨hbound, hnumbers⟩ := ih (max bound number)
    rw [List.foldl_cons, List.forall_mem_cons]
    exact ⟨Nat.le_trans (Nat.le_max_left _ _) hbound,
      Nat.le_trans (Nat.le_max_right _ _) hbound, hnumbers⟩

/-- A bound that no number goes beyond is the greatest. -/
theorem foldl_max_eq {numbers : List Nat} {bound : Nat} (h : ∀ n ∈ numbers, n ≤ bound) :
    numbers.foldl max bound = bound := by
  induction numbers with
  | nil => rfl
  | cons number numbers ih =>
    obtain ⟨hnumber, hnumbers⟩ := List.forall_mem_cons.mp h
    rw [List.foldl_cons, Nat.max_eq_left hnumber, ih hnumbers]

namespace Table

/-! ## What is shown -/

/-- A line of a table: texts with blanks around them, and bars in between. -/
def IsLine (texts : List (List Char)) (line : String) : Prop :=
  ∃ drawn, List.Forall₂ IsPadded texts drawn ∧ line = " " ++ "│".intercalate drawn ++ " \n"

/-- A row of a table. -/
structure IsRow (cells : List String) (text : String) : Prop where
  /-- The lines of the cells are shown next to each other, as far down as the highest goes. -/
  lines : ∃ lines : List String, text = String.join lines ∧ 1 ≤ lines.length ∧
    (∀ cell ∈ cells, (Text.lines cell.toList).length ≤ lines.length) ∧
    ∀ i (h : i < lines.length),
      IsLine (cells.map fun cell => ((Text.lines cell.toList)[i]?).getD []) lines[i]
  /-- Cells without line feeds are shown on one line. -/
  single : (∀ cell ∈ cells, '\n' ∉ cell.toList) → IsLine (cells.map String.toList) text

/-- A line across a table, with a mark between two columns. -/
def IsRule (mark : String) (columns : Nat) (text : String) : Prop :=
  ∃ widths : List Nat, widths.length = columns ∧ text =
    " " ++ mark.intercalate (widths.map fun width => String.ofList (List.replicate width '─')) ++
      " \n"

/-- A text that shows a table, with its titles and all of its rows in order. -/
inductive Drawn (table : Table) : String → Prop
  | intro {titles upper lower : String} {rows : List String}
      (htitles : IsRow (table.columns.map (·.title)) titles)
      (hupper : IsRule "┼" table.columns.length upper)
      (hrows : List.Forall₂ IsRow table.rows rows)
      (hlower : IsRule "┴" table.columns.length lower) :
      Drawn table (titles ++ upper ++ String.join rows ++ lower)

/-! ## How it is drawn -/

variable {measured : List (Column × Nat)}

/-- The texts of a line are drawn between bars, each in its column. -/
theorem isLine_textLine {texts : List (List Char)} (h : texts.length = measured.length) :
    IsLine texts (textLine measured texts) := by
  refine ⟨_, ?_, rfl⟩
  induction measured generalizing texts with
  | nil =>
    obtain rfl := List.length_eq_zero_iff.mp h
    exact .nil
  | cons column measured ih =>
    cases texts with
    | nil => cases h
    | cons text texts => exact .cons (Column.isPadded_line _ _ _) (ih (Nat.succ.inj h))

/-- The height of a row whose cells are one line each. -/
theorem height_of_not_newline {cells : List String} (h : ∀ cell ∈ cells, '\n' ∉ cell.toList) :
    ((cells.map fun text => Text.lines text.toList).map List.length).foldl max 1 = 1 := by
  apply foldl_max_eq
  intro n hn
  simp only [List.map_map, List.mem_map, Function.comp_apply] at hn
  obtain ⟨cell, hcell, rfl⟩ := hn
  rw [Text.lines_of_not_newline (h cell hcell)]
  split <;> simp

/-- A row is drawn with all the lines of its cells. -/
theorem isRow_rowLines {cells : List String} (h : cells.length = measured.length) :
    IsRow cells (rowLines measured cells) where
  lines := by
    -- The row is as high as its highest cell, and has a line at least.
    obtain ⟨hone, hcells⟩ := le_foldl_max
      ((cells.map fun text => Text.lines text.toList).map List.length) 1
    refine ⟨_, rfl, ?_, ?_, ?_⟩
    · simpa using hone
    · intro cell hcell
      have hheight := hcells (Text.lines cell.toList).length (by
        simp only [List.map_map, List.mem_map, Function.comp_apply]
        exact ⟨cell, hcell, rfl⟩)
      simpa using hheight
    · -- On each line there is what every cell has there.
      intro i hi
      rw [List.getElem_map, List.getElem_range, List.map_map]
      exact isLine_textLine (by rw [List.length_map, h])
  single hsingle := by
    -- Of a row of that height the only line shows the cells as they are.
    have hfirst : cells.map ((fun lines : List (List Char) => (lines[0]?).getD []) ∘
        fun text => Text.lines text.toList) = cells.map String.toList := by
      apply List.map_congr_left
      intro cell hcell
      rw [Function.comp_apply, Text.lines_of_not_newline (hsingle cell hcell)]
      cases hchars : cell.toList <;> rfl
    simp only [rowLines]
    rw [height_of_not_newline hsingle, List.range_one, List.map_singleton, String.join_cons,
      String.join_nil, String.append_empty, List.map_map, hfirst]
    exact isLine_textLine (by rw [List.length_map, h])

/-- A line across the table is made for its columns. -/
theorem isRule_ruleLine (mark : String) : IsRule mark measured.length (ruleLine measured mark) := by
  refine ⟨measured.map fun column => column.2 + 2, List.length_map _, ?_⟩
  rw [List.map_map]
  rfl

/-- A table all of whose rows have a cell for every column is drawn with all that it shows. -/
theorem drawn_render {table : Table} (h : ∀ row ∈ table.rows, row.length = table.columns.length) :
    table.Drawn table.render := by
  have hmeasured : table.measured.length = table.columns.length := by
    rw [measured, List.length_mapIdx]
  have hrule (mark : String) : IsRule mark table.columns.length (ruleLine table.measured mark) := by
    rw [← hmeasured]
    exact isRule_ruleLine mark
  refine .intro (isRow_rowLines ?_) (hrule "┼") ?_ (hrule "┴")
  · -- The titles are a row like the others.
    rw [List.length_map, hmeasured]
  · rw [List.forall₂_map_right_iff, List.forall₂_same]
    exact fun row hrow => isRow_rowLines (by rw [h row hrow, hmeasured])

end Table

end Verse
