import Verse.Text.Emoji

/-!
# Width of a text

How many columns of a terminal a text takes.  Most characters add their own width.  Ligatures
and emoji are the exceptions: there a character adds less than that, and how much depends on
the text behind it.  So a text is measured from its end, and of the part that has been
measured there is kept what it begins with.

* `Beginning.extend`   what a character in front of a text adds
* `width`              the columns that a text takes
-/

namespace Verse.Text

/-- A variation selector asks for the emoji or for the plain symbol of the character in front
    of it. -/
inductive Selector where
  | emoji
  | symbol
deriving DecidableEq

/-- What a text begins with behind its selectors. -/
inductive Joint where
  /-- Nothing that takes part in a ligature or an emoji. -/
  | plain
  | ligature (part : Ligature)
  | emoji (part : Emoji)
deriving DecidableEq

/-- What a text begins with, so far as a character in front of it can be affected. -/
structure Beginning where
  joint : Joint := .plain
  selector : Option Selector := none
deriving DecidableEq

namespace Joint

/-- What a text begins with whose first character is this one. -/
def ofChar (c : Char) : Joint :=
  match Ligature.ofChar? c with
  | some part => .ligature part
  | none =>
    match Emoji.ofChar? c with
    | some part => .emoji part
    | none => .plain

/-- What is left of a joint with a selector in front of it. -/
def select (selector : Selector) : Joint → Joint
  | .ligature part => if part.passesSelectors then .ligature part else .plain
  | .emoji part =>
    if selector = .emoji && part.passesSelector then .emoji part else .plain
  | .plain => .plain

/-- What is left of a joint if a selector in front of it goes unused. -/
def unselected : Joint → Joint
  | .ligature part => .ligature part
  | _ => .plain

/-- The columns that a character adds, and what the text begins with then, if the character
    takes part in a ligature or an emoji. -/
def join? (c : Char) : Joint → Option (Int × Joint)
  | .plain => none
  | .ligature part =>
    -- Between the letters of a ligature there may be joiners and marks that are not drawn.
    if part.passesMarks && c = joiner then some (0, .ligature part.addJoiner)
    else if part.passesMarks && inRanges hiddenMarkRanges c then some (0, .ligature part)
    else
      match part.join? c with
      | some (columns, some rest) => some (columns, .ligature rest)
      | some (columns, none) => some (columns, .plain)
      | none => none
  | .emoji part => (part.join? c).map fun (columns, part) => (columns, .emoji part)

end Joint

namespace Beginning

/-- The columns that a character adds to a text in front of which it is put, and what the
    text begins with then. -/
def extend (c : Char) (behind : Beginning) : Int × Beginning :=
  if behind.selector = some .emoji && inRanges variantRanges c then
    -- An emoji that the joint still waits for takes no columns of its own.
    let columns := match behind.joint with
      | .emoji _ => 0
      | _ => 2
    (columns, { joint := .emoji .whole })
  else if c.toNat ≤ 0xa0 then (1, {})
  else
    let joint :=
      if behind.selector = some .emoji then behind.joint.unselected else behind.joint
    if c = '\ufe0f' then (0, { joint := joint.select .emoji, selector := some .emoji })
    else if c = '\ufe0e' then (0, { joint := joint.select .symbol, selector := some .symbol })
    else if behind.selector = some .symbol && inRanges narrowVariantRanges c then (1, {})
    else
      match joint.join? c with
      | some (columns, joint) => (columns, { joint })
      | none => (charWidth c, { joint := Joint.ofChar c })

end Beginning

/-- The columns that a text takes, and what it begins with. -/
def measure : List Char → Int × Beginning
  | [] => (0, {})
  | c :: rest =>
    let (columns, behind) := measure rest
    let (added, beginning) := behind.extend c
    (columns + added, beginning)

/-- The columns that a text takes. -/
def width (text : List Char) : Nat := (measure text).1.toNat

end Verse.Text
