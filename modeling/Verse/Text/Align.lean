import Verse.Text.Width

/-!
# Alignment

Texts are filled up to a width with spaces.  A text may hold escape sequences that set the
colours of a terminal; of those only the escape character itself is counted.
-/

namespace Verse.Text

/-- Where a reader is in an escape sequence. -/
inductive EscapeState where
  | outside
  /-- Behind the escape character. -/
  | begun
  /-- Behind its bracket, up to the letter `m`. -/
  | inside
deriving DecidableEq

/-- How many characters of a text are part of escape sequences, of those that would be seen
    elsewhere. -/
def escapedCount : EscapeState → List Char → Nat
  | _, [] => 0
  | .outside, c :: rest => escapedCount (if c = '\x1b' then .begun else .outside) rest
  | .begun, c :: rest =>
    if c = '[' then 1 + escapedCount .inside rest else escapedCount .outside rest
  | .inside, c :: rest =>
    (if isControl c || charWidth c = 0 then 0 else 1) +
      escapedCount (if c = 'm' then .outside else .inside) rest

/-- The columns that a text takes where escape sequences are obeyed. -/
def shownWidth (text : List Char) : Nat :=
  width text - escapedCount .outside text

/-- The spaces that fill a text up to a width. -/
def filling (columns : Nat) (text : List Char) : List Char :=
  List.replicate (columns - shownWidth text) ' '

/-- Fill a text up to a width with spaces on its left. -/
def alignRight (columns : Nat) (text : List Char) : List Char :=
  filling columns text ++ text

/-- Fill a text up to a width with spaces on its right. -/
def alignLeft (columns : Nat) (text : List Char) : List Char :=
  text ++ filling columns text

end Verse.Text
