import Verse.Numeric.Binary

/-!
# Rounding away from zero

Commands that need a whole number (cursor moves, character codes, parities) round away from
zero: `2.2` counts as `3` and `-0.5` as `-1`.  The rounded magnitude is an exact natural
number; `roundAway` is the double that holds it, `offset` the cursor offset that it gives,
and `Parity` its last bit.
-/

namespace Verse.Numeric

/-- The least whole number that is not below `mantissa · 2 ^ exponent`. -/
def ceiling (mantissa : Nat) (exponent : Int) : Nat :=
  let (num, den) := fractionOf mantissa exponent
  (num + den - 1) / den

/-- Round away from zero.  Zeros keep their sign; infinities and NaN stay as they are. -/
def roundAway (v : Float) : Float :=
  match decode v with
  | .finite negative mantissa exponent =>
    if exponent < 0 then ofWhole negative (ceiling mantissa exponent) else v
  | _ => v

/-- The greatest offset of a cursor, `2 ^ 63 - 1`. -/
def maxOffset : Int := 9223372036854775807

/-- The least offset of a cursor, `- 2 ^ 63`. -/
def minOffset : Int := -9223372036854775808

/-- The offset nearest to an integer. -/
def saturate (k : Int) : Int :=
  max minOffset (min maxOffset k)

/-- Put a sign on a magnitude. -/
def signed (negative : Bool) (n : Nat) : Int :=
  if negative then -n else n

/-- The whole number a double is rounded to away from zero, held within the offsets.  An
    infinity lies beyond every offset, and NaN gives no offset at all. -/
def offset (v : Float) : Int :=
  match decode v with
  | .nan => 0
  | .infinite negative => if negative then minOffset else maxOffset
  | .finite negative mantissa exponent => saturate (signed negative (ceiling mantissa exponent))

/-- Whether a value is odd once it is rounded away from zero.  Infinities and NaN count as
    odd. -/
def isOdd (v : Float) : Bool :=
  match decode v with
  | .finite _ mantissa exponent => ceiling mantissa exponent % 2 == 1
  | _ => true

/-- Whether an offset is odd.  An offset held at the upper bound stands for a double at or
    above `2 ^ 63`, and all of those are even. -/
def isOddOffset (k : Int) : Bool :=
  k % 2 != 0 && k != maxOffset

/-- Reverse an offset, staying within the offsets. -/
def reverse (k : Int) : Int := saturate (-k)

end Verse.Numeric
