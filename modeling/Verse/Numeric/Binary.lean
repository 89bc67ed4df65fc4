/-!
# Doubles, taken apart

Every number of a program is a double.  What the commands ask of one (its whole part, its
parity, its decimal digits) is exact arithmetic on the integers that its bits encode, so
this file reads those integers off the bits once and for all: a finite double is
`± mantissa · 2 ^ exponent`.
-/

namespace Verse.Numeric

/-- What the bits of a double stand for. -/
inductive Binary where
  /-- No number at all. -/
  | nan
  /-- An infinity with its sign. -/
  | infinite (negative : Bool)
  /-- The number `± mantissa · 2 ^ exponent`.  A zero keeps its sign. -/
  | finite (negative : Bool) (mantissa : Nat) (exponent : Int)
deriving DecidableEq

/-- The weight of the leading bit of a mantissa, `2 ^ 52`.  The bits of a double leave it out. -/
def leadingBit : Nat := 0x10000000000000

/-- Read the sign, the mantissa and the exponent off the bits of a double. -/
def decode (v : Float) : Binary :=
  let bits := v.toBits.toNat
  let negative := bits.testBit 63
  let exponent : Nat := bits / leadingBit % 2048
  let fraction : Nat := bits % leadingBit
  -- The greatest exponent marks infinities and NaN, the least one numbers without a leading bit.
  if exponent = 2047 then
    if fraction = 0 then .infinite negative else .nan
  else if exponent = 0 then .finite negative fraction (-1074)
  else .finite negative (leadingBit + fraction) ((exponent : Int) - 1075)

/-- The double next to the signed whole number `± n`, which is that number itself while
    `n ≤ 2 ^ 53`. -/
def ofWhole (negative : Bool) (n : Nat) : Float :=
  if negative then -(Float.ofNat n) else Float.ofNat n

/-- The exact value `mantissa · 2 ^ exponent` as a numerator over a denominator. -/
def fractionOf (mantissa : Nat) (exponent : Int) : Nat × Nat :=
  (mantissa <<< exponent.toNat, 1 <<< (-exponent).toNat)

theorem fractionOf_den_pos (mantissa : Nat) (exponent : Int) :
    0 < (fractionOf mantissa exponent).2 := by
  simp only [fractionOf, Nat.shiftLeft_eq, Nat.one_mul]
  exact Nat.pow_pos (by decide)

end Verse.Numeric
