import Verse.Numeric.Decimal

/-!
# Six significant digits

What `Count` prints and what the tables of a trace show: a number rounded to six significant
digits, in positional notation while its leading digit stands between the ten-thousandths
and the hundred-thousands, and in scientific notation with at least two exponent digits
beyond.  Trailing zeros are left out.
-/

namespace Verse.Numeric

/-- The digits of a scientific exponent, at least two of them. -/
def exponentDigits (n : Nat) : String :=
  if n < 10 then "0" ++ toString n else toString n

/-- A mantissa with one digit before the point, then the exponent with its sign. -/
def scientific (digits : List Char) (power : Int) : String :=
  positional digits 1 ++ "e" ++ (if power < 0 then "-" else "+") ++ exponentDigits power.natAbs

/-- The digits of a number rounded to six places and the power of ten of the first of
    them. -/
def layOut (digits : Nat) (power : Int) : String :=
  let kept := strippedDigits digits
  if -4 ≤ power ∧ power < 6 then positional kept (power + 1) else scientific kept power

/-- The text of a number with six significant digits. -/
def general (v : Float) : String :=
  match decode v with
  | .nan => "nan"
  | .infinite negative => withSign negative "inf"
  | .finite negative mantissa exponent =>
    if mantissa = 0 then withSign negative "0"
    else
      let (num, den) := fractionOf mantissa exponent
      let (digits, power) := significant 6 num den
      withSign negative (layOut digits power)

end Verse.Numeric
