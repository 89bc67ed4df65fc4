import Verse.Text.CaseTable
import Verse.Text.Ranges

/-!
# Lower-case letters

Words of a dictionary are stored in lower case.  A letter's lower-case form does not depend
on the letters around it, with one exception: a capital sigma that ends a word takes the
final form.
-/

namespace Verse.Text

/-- The lower-case letter of a character by some ascending ranges; a character outside them
    is its own. -/
def shiftCase (ranges : List CaseRange) (c : Char) : Char :=
  match ranges with
  | [] => c
  | range :: rest =>
    if c.toNat < range.first then c
    else if c.toNat ≤ range.last then
      if (c.toNat - range.first) % range.step = 0 then
        Char.ofNat ((c.toNat : Int) + range.shift).toNat
      else c
    else shiftCase rest c

/-- The lower-case form of a character that stands alone. -/
def lowerChar (c : Char) : List Char :=
  if c = 'İ' then ['i', '\u0307'] else [shiftCase caseRanges c]

/-- Whether the first character that counts for the case of a word is a letter with a
    case. -/
def startsCased (cs : List Char) : Bool :=
  match cs.dropWhile (inRanges caseIgnorableRanges) with
  | [] => false
  | c :: _ => inRanges casedRanges c

/-- Lower a text of which `before` precedes, the nearest character first. -/
def lowerAfter (before : List Char) : List Char → List Char
  | [] => []
  | c :: rest =>
    let lowered :=
      if c = 'Σ' then
        if startsCased before && !startsCased rest then ['ς'] else ['σ']
      else lowerChar c
    lowered ++ lowerAfter (c :: before) rest

/-- The lower-case form of a text. -/
def lower (text : String) : String :=
  String.ofList (lowerAfter [] text.toList)

end Verse.Text
