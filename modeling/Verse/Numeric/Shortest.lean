import Verse.Numeric.Decimal

/-!
# The fewest digits that identify a double

Messages, tokens and cells show a number by the shortest decimal that no other double is
nearer to.  Such decimals are looked for on coarser grids first: on each grid only the two
neighbours of the value can identify it, and of two that do the nearer is taken.
-/

namespace Verse.Numeric

/-- The reals that round to one double, in quarters of its last bit.  The ends belong to
    them exactly when the mantissa is even. -/
structure Interval where
  low : Nat
  high : Nat
  closed : Bool

/-- The reals that round to `mantissa · 2 ^ exponent`, in units of `2 ^ (exponent - 2)`.
    Below a power of two the doubles lie twice as close. -/
def Interval.around (mantissa : Nat) (exponent : Int) : Interval where
  low := if mantissa = leadingBit ∧ -1074 < exponent then 4 * mantissa - 1 else 4 * mantissa - 2
  high := 4 * mantissa + 2
  closed := mantissa % 2 == 0

/-- Whether `x` lies in an interval whose units are worth `unit` each. -/
def Interval.contains (i : Interval) (unit x : Nat) : Bool :=
  (i.low * unit < x || i.closed && i.low * unit == x) &&
    (x < i.high * unit || i.closed && x == i.high * unit)

/-- The multiple of `10 ^ power` that identifies `mantissa · 2 ^ exponent`, if there is one:
    the nearer of the value's two neighbours on that grid, and halfway between them the
    upper one. -/
def onGrid? (mantissa : Nat) (exponent power : Int) : Option Nat :=
  -- The value, the grid and the interval are all scaled to whole numbers.
  let grid := tenTo power.toNat <<< (2 - exponent).toNat
  let unit := tenTo (-power).toNat <<< (exponent - 2).toNat
  let value := 4 * mantissa * unit
  let low := value / grid
  let interval := Interval.around mantissa exponent
  match interval.contains unit (low * grid), interval.contains unit ((low + 1) * grid) with
  | true, true => if 2 * value < (2 * low + 1) * grid then some low else some (low + 1)
  | true, false => some low
  | false, true => some (low + 1)
  | false, false => none

/-- The fewest digits that identify the positive value `mantissa · 2 ^ exponent`, with the
    power of ten of the last of them.  Seventeen digits are always enough. -/
def shortest (mantissa : Nat) (exponent : Int) : Nat × Int :=
  let (num, den) := fractionOf mantissa exponent
  let leading := leadingPower num den
  let attempt (places : Nat) : Option (Nat × Int) :=
    let power := leading + 1 - places
    (onGrid? mantissa exponent power).map fun digits => (digits, power)
  let seventeen :=
    let (digits, power) := significant 17 num den
    (digits, power - 16)
  ((List.range' 1 17).findSome? attempt).getD seventeen

/-- The text of a number: the fewest digits that identify it, without an exponent, and
    without a point when it is whole. -/
def display (v : Float) : String :=
  match decode v with
  | .nan => "NaN"
  | .infinite negative => withSign negative "inf"
  | .finite negative mantissa exponent =>
    if mantissa = 0 then withSign negative "0"
    else
      let (digits, power) := shortest mantissa exponent
      let point : Int := (Nat.toDigits 10 digits).length + power
      withSign negative (positional (strippedDigits digits) point)

end Verse.Numeric
