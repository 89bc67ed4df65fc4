/-!
# Ranges of characters

Properties of characters are kept as lists of ranges, which ascend and do not overlap.
-/

namespace Verse.Text

/-- Whether a character lies in one of some ascending ranges. -/
def inRanges (ranges : List (Nat × Nat)) (c : Char) : Bool :=
  match ranges with
  | [] => false
  | (first, last) :: rest =>
    if c.toNat < first then false
    else if c.toNat ≤ last then true
    else inRanges rest c

end Verse.Text
