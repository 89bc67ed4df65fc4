import Verse.Text.Ranges
import Verse.Text.WidthTable

/-!
# Width of a character

How many columns of a terminal a character takes when it stands alone.
-/

namespace Verse.Text

/-- Whether a character is a control character. -/
def isControl (c : Char) : Bool :=
  c.toNat < 0x20 || (0x7f ≤ c.toNat && c.toNat < 0xa0)

/-- The columns that a character takes.  Two signs of Khmer stand for several letters and are
    as wide as those. -/
def charWidth (c : Char) : Nat :=
  if c = '\u17a4' then 2
  else if c = '\u17d8' then 3
  else if inRanges zeroWidthRanges c then 0
  else if inRanges wideRanges c then 2
  else 1

end Verse.Text
