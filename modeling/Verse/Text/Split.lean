/-!
# Lines and fields

Texts are cut into lines at line feeds and lines into fields at white space.  One function
does both: it cuts a text at every character of a class, and no other character is lost.

* `lines`    the lines of a text
* `fields`   the fields of a line
-/

namespace Verse.Text

/-- Cut a text at every character of a class; the separators are left out. -/
def split (separates : Char → Bool) : List Char → List (List Char)
  | [] => [[]]
  | c :: rest =>
    if separates c then [] :: split separates rest
    else
      match split separates rest with
      | [] => [[c]]
      | piece :: pieces => (c :: piece) :: pieces

/-- White space, over all of Unicode. -/
def isWhite (c : Char) : Bool :=
  let n := c.toNat
  (9 ≤ n && n ≤ 13) || n == 0x20 || n == 0x85 || n == 0xa0 || n == 0x1680 ||
    (0x2000 ≤ n && n ≤ 0x200a) || n == 0x2028 || n == 0x2029 || n == 0x202f || n == 0x205f ||
    n == 0x3000

/-- A piece in front of a line feed as a line: a carriage return at its end is not part of
    it. -/
def dropReturn (piece : List Char) : List Char :=
  if piece.getLast? = some '\r' then piece.dropLast else piece

/-- The pieces between line feeds as lines.  The last piece has no line feed behind it and is
    only a line if it holds anything. -/
def endLines : List (List Char) → List (List Char)
  | [] => []
  | [last] => if last.isEmpty then [] else [last]
  | piece :: rest => dropReturn piece :: endLines rest

/-- The lines of a text. -/
def lines (text : List Char) : List (List Char) :=
  endLines (split (· == '\n') text)

/-- The fields of a line: its longest runs without white space. -/
def fields (line : List Char) : List (List Char) :=
  (split isWhite line).filter (!·.isEmpty)

end Verse.Text
