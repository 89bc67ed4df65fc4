import Verse.Proofs.Machine.Turns
import Verse.Proofs.Numeric.Plain
import Verse.Proofs.Trace.Drawing
import Verse.Trace.Record

/-!
# What the text of a record shows

The text of an execution has a heading with its number, the table of the tape, another heading
with the number, and the table of the variables; the text of an end has the same without a number.
The numbers are read off the texts again.

* `TraceRecord.Reads`          a text that shows a record
* `TraceRecord.reads_text`     the texts of records do
* `executionNumber?_of_reads`  the number that a text shows
-/

namespace Verse

namespace TraceRecord

/-- What a heading says of the frame that a rung is executed in. -/
def placeText (frame : Option Frame) : String :=
  frame.elim "" fun frame => ", Execution of \"" ++ frame.name ++ "\""

/-- The line above a heading, of sixty dashes. -/
def lineAbove : String :=
  "\n" ++ String.ofList (List.replicate 60 '-') ++ "\n"

/-- The line below a heading, behind the colon at its end. -/
def lineBelow : String :=
  ":\n" ++ String.ofList (List.replicate 60 '-') ++ "\n"

/-- A text that shows a record. -/
inductive Reads : TraceRecord → String → Prop
  /-- An execution has its number and its frame in both headings, with a table below each. -/
  | execution (step : Nat) (frame : Option Frame) (scene : Snapshot) {tape vars : String}
      (htape : (tapeTable scene).Drawn tape) (hvars : (variableTable scene.vars frame).Drawn vars) :
      Reads (.execution step frame scene)
        (lineAbove ++ "Execution " ++ toString step ++ placeText frame ++ lineBelow ++ tape ++
          lineAbove ++ "Variables at execution " ++ toString step ++ placeText frame ++ lineBelow ++
          vars)
  | output (text : String) : Reads (.output text) ("\nOutput: \"" ++ text ++ "\"\n")
  /-- No block is being executed at the end. -/
  | termination (scene : Snapshot) {tape vars : String} (htape : (tapeTable scene).Drawn tape)
      (hvars : (variableTable scene.vars none).Drawn vars) :
      Reads (.termination scene)
        (lineAbove ++ "Termination" ++ lineBelow ++ tape ++
          lineAbove ++ "Variables at termination" ++ lineBelow ++ vars ++ "\n")

/-- The label of an execution is its number and its place. -/
theorem label_eq (step : Nat) (frame : Option Frame) :
    label step frame = toString step ++ placeText frame := by
  cases frame with
  | none => exact String.append_empty.symm
  | some frame => simp only [label, placeText, Option.elim_some, String.append_assoc]

/-! ## The tables of a dump -/

/-- The table of a tape is drawn with all of its rows. -/
theorem drawn_tapeTable (scene : Snapshot) : (tapeTable scene).Drawn (tapeTable scene).render := by
  apply Table.drawn_render
  intro cells hcells
  obtain ⟨row, -, rfl⟩ := List.mem_map.mp hcells
  -- The rows of rungs and that of the end have seven cells.
  obtain ⟨delegate, bureaucrat, index, _ | rung⟩ := row <;> rfl

/-- The table of the variables is drawn with all of its rows. -/
theorem drawn_variableTable (vars : Variables) (frame : Option Frame) :
    (variableTable vars frame).Drawn (variableTable vars frame).render := by
  apply Table.drawn_render
  intro cells hcells
  obtain ⟨row, -, rfl⟩ := List.mem_map.mp hcells
  cases row <;> rfl

/-- A heading has its title between the two lines of dashes. -/
theorem heading_eq (title : String) : heading title = lineAbove ++ title ++ lineBelow := by
  have hlines (line : String) : "\n" ++ line ++ "\n" ++ title ++ ":\n" ++ line ++ "\n" =
      ("\n" ++ line ++ "\n") ++ title ++ (":\n" ++ line ++ "\n") := by
    simp only [String.append_assoc]
  exact hlines (String.ofList (List.replicate 60 '-'))

/-- Every record is shown by its text. -/
theorem reads_text (record : TraceRecord) : record.Reads record.text := by
  cases record with
  | execution step frame scene =>
    -- The text is the one shown, but for how its parts are grouped.
    have hreads := Reads.execution step frame scene (drawn_tapeTable scene)
      (drawn_variableTable scene.vars frame)
    rw [text, label_eq, dump, heading_eq, heading_eq]
    simpa only [String.append_assoc] using hreads
  | output text => exact .output text
  | termination scene =>
    have hreads := Reads.termination scene (drawn_tapeTable scene)
      (drawn_variableTable scene.vars none)
    rw [text, dump, heading_eq, heading_eq]
    simpa only [String.append_assoc] using hreads

end TraceRecord

/-! ## The number of an execution -/

/-- The heading of an execution, up to its number. -/
def executionHeading : String :=
  TraceRecord.lineAbove ++ "Execution "

/-- The characters of the line of dashes. -/
theorem toList_lineAbove :
    TraceRecord.lineAbove.toList = '\n' :: List.replicate 60 '-' ++ ['\n'] := by
  rw [TraceRecord.lineAbove, String.toList_append, String.toList_append, String.toList_ofList]
  rfl

/-- The number in the heading of a text, if it is that of an execution. -/
def executionNumber? (text : String) : Option Nat :=
  let heading := executionHeading.toList
  if heading.isPrefixOf text.toList then
    some (Numeric.digitsValue 0 ((text.toList.drop heading.length).takeWhile Char.isDigit))
  else none

/-- The digits of a number go up to what is no digit. -/
theorem takeWhile_isDigit_toString (n : Nat) {rest : List Char}
    (hrest : ∀ c ∈ rest.head?, c.isDigit = false) :
    ((toString n).toList ++ rest).takeWhile Char.isDigit = (toString n).toList := by
  have hstop : rest.takeWhile Char.isDigit = [] := by
    cases rest with
    | nil => rfl
    | cons c rest => exact List.takeWhile_cons_of_neg (by simp [hrest c rfl])
  rw [List.takeWhile_append_of_pos (Numeric.isDigit_toString n), hstop, List.append_nil]

/-- A colon or a comma follows the number in a heading. -/
theorem isDigit_of_mem_head?_placeText (frame : Option Frame) (rest : String) :
    ∀ c ∈ (TraceRecord.placeText frame ++ (TraceRecord.lineBelow ++ rest)).toList.head?,
      c.isDigit = false := by
  cases frame <;> simp [TraceRecord.placeText, TraceRecord.lineBelow]

/-- The number is read up to what follows it. -/
theorem executionNumber?_heading (step : Nat) {rest : String}
    (hrest : ∀ c ∈ rest.toList.head?, c.isDigit = false) :
    executionNumber? (executionHeading ++ (toString step ++ rest)) = some step := by
  rw [executionNumber?, String.toList_append, List.drop_left, String.toList_append,
    takeWhile_isDigit_toString step hrest, Numeric.digitsValue_toString]
  exact if_pos (List.isPrefixOf_iff_prefix.mpr (List.prefix_append _ _))

/-- A text that goes another way than the heading somewhere has no number. -/
theorem executionNumber?_of_ne {text : String} {i : Nat} {c d : Char}
    (h : text.toList[i]? = some c) (h' : executionHeading.toList[i]? = some d) (hne : c ≠ d) :
    executionNumber? text = none := by
  apply if_neg
  intro hprefix
  obtain ⟨rest, hrest⟩ := List.isPrefixOf_iff_prefix.mp hprefix
  rw [← hrest, List.getElem?_append_left (List.getElem?_eq_some_iff.mp h').1, h'] at h
  exact hne (Option.some.inj h).symm

/-- The text of an execution has its number, and no other text has one. -/
theorem executionNumber?_of_reads {record : TraceRecord} {text : String} (h : record.Reads text) :
    executionNumber? text = record.number? := by
  cases h with
  | execution step frame scene htape hvars =>
    -- The dashes and the word before the number are the heading.
    simp only [String.append_assoc]
    rw [← String.append_assoc]
    exact executionNumber?_heading step (isDigit_of_mem_head?_placeText frame _)
  | output text =>
    -- Behind the line feed there is no dash.
    apply executionNumber?_of_ne (i := 1) (c := 'O') (d := '-')
    · rw [String.toList_append, String.toList_append]
      rfl
    · rw [executionHeading, String.toList_append, toList_lineAbove]
      rfl
    · decide
  | termination scene htape hvars =>
    -- The headings begin with the same line.
    apply executionNumber?_of_ne (i := 62) (c := 'T') (d := 'E')
    · iterate 7 rw [String.toList_append]
      rw [toList_lineAbove]
      rfl
    · rw [executionHeading, String.toList_append, toList_lineAbove]
      rfl
    · decide

/-- The numbers in the texts of some records are those of their executions. -/
theorem TraceRecord.filterMap_executionNumber? (records : List TraceRecord) :
    (records.map TraceRecord.text).filterMap executionNumber? =
      records.filterMap TraceRecord.number? := by
  rw [List.filterMap_map]
  exact List.filterMap_congr fun record _ => executionNumber?_of_reads record.reads_text

end Verse
