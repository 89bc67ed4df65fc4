import Verse.Text.Align
import Verse.Text.Split

/-!
# Tables

Tables are drawn with lines below the title and below the last row.  Every column is as wide
as the widest line in it, and every row as high as the highest of its cells.
-/

namespace Verse

/-- A column of a table. -/
structure Column where
  title : String
  /-- Whether cells are aligned to the right. -/
  right : Bool := false

namespace Column

/-- The width of a column that holds some cells: that of their widest line. -/
def width (column : Column) (cells : List String) : Nat :=
  let lines := (column.title :: cells).flatMap fun text => Text.lines text.toList
  (lines.map Text.shownWidth).foldl max 0

/-- A line of a cell with a space on either side, filled up to the width of its column. -/
def line (column : Column) (width : Nat) (text : List Char) : String :=
  let filled := if column.right then Text.alignRight width text else Text.alignLeft width text
  " " ++ String.ofList filled ++ " "

end Column

/-- A table: its columns, and the cells of each row. -/
structure Table where
  columns : List Column
  rows : List (List String)

namespace Table

/-- The columns with their widths. -/
def measured (table : Table) : List (Column × Nat) :=
  table.columns.mapIdx fun i column =>
    (column, column.width (table.rows.map fun row => (row[i]?).getD ""))

/-- A line of a row between the borders of a table. -/
def textLine (measured : List (Column × Nat)) (texts : List (List Char)) : String :=
  let drawn := (measured.zip texts).map fun ((column, width), text) => column.line width text
  " " ++ "│".intercalate drawn ++ " \n"

/-- A row.  It has as many lines as its highest cell, and one if all of its cells are
    empty. -/
def rowLines (measured : List (Column × Nat)) (cells : List String) : String :=
  let cells := cells.map fun text => Text.lines text.toList
  let height := (cells.map List.length).foldl max 1
  String.join <| (List.range height).map fun i =>
    textLine measured (cells.map fun lines => (lines[i]?).getD [])

/-- A line across a table with a mark between two columns. -/
def ruleLine (measured : List (Column × Nat)) (mark : String) : String :=
  let drawn := measured.map fun (_, width) => String.ofList (List.replicate (width + 2) '─')
  " " ++ mark.intercalate drawn ++ " \n"

/-- Draw a table. -/
def render (table : Table) : String :=
  let measured := table.measured
  rowLines measured (table.columns.map (·.title)) ++ ruleLine measured "┼" ++
    String.join (table.rows.map (rowLines measured)) ++ ruleLine measured "┴"

end Table

end Verse
