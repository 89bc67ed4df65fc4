/-!
# Reading numerals

Decimal digits, read as natural numbers and as doubles.
-/

namespace Verse.Numeric

/-- The number that decimal digits stand for, continuing from the digits before them. -/
def digitsValue (before : Nat) (digits : List Char) : Nat :=
  digits.foldl (fun n c => 10 * n + (c.toNat - 48)) before

/-- A whole number below `bound`: decimal digits, with or without a plus sign. -/
def unsigned? (bound : Nat) (text : List Char) : Option Nat :=
  let digits := if text.head? = some '+' then text.drop 1 else text
  if digits.isEmpty || !digits.all Char.isDigit then none
  else
    let n := digitsValue 0 digits
    if n < bound then some n else none

/-- The double nearest to a decimal numeral with a sign, a whole part and a fractional
    part. -/
def ofNumeral (negative : Bool) (whole fraction : List Char) : Float :=
  let v := Float.ofScientific (digitsValue (digitsValue 0 whole) fraction) true fraction.length
  if negative then -v else v

end Verse.Numeric
