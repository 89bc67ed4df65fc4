import Verse.Numeric.Binary

/-!
# Decimal digits of an exact value

A positive value is given as a fraction.  This file finds the power of ten at or below it,
rounds it to a number of significant digits, and lays digits out around a decimal point.
All arithmetic is on naturals, so nothing is lost on the way.
-/

namespace Verse.Numeric

/-- The power of ten at or below a number: `0` for units, `1` for tens, `2` for hundreds. -/
def magnitude (n : Nat) : Nat :=
  if n < 10 then 0 else magnitude (n / 10) + 1
termination_by n
decreasing_by omega

/-- A power of ten. -/
def tenTo : Nat → Nat
  | 0 => 1
  | n + 1 => 10 * tenTo n

theorem lt_tenTo_magnitude (n : Nat) : n < tenTo (magnitude n + 1) := by
  fun_induction magnitude n with
  | case1 n h => simpa [tenTo] using h
  | case2 n h ih => rw [tenTo]; omega

theorem tenTo_magnitude_le {n : Nat} (hn : 0 < n) : tenTo (magnitude n) ≤ n := by
  fun_induction magnitude n with
  | case1 n h => simp [tenTo]; omega
  | case2 n h ih => have := ih (by omega); rw [tenTo]; omega

/-- The exponent of the leading decimal digit of the positive value `num / den`. -/
def leadingPower (num den : Nat) : Int :=
  if den ≤ num then magnitude (num / den)
  else -(magnitude ((den + num - 1) / num - 1) + 1 : Nat)

/-- The whole number nearest to `num / den`; halfway between two, the even one. -/
def nearest (num den : Nat) : Nat :=
  let low := num / den
  let twice := 2 * (num % den)
  if twice < den ∨ twice = den ∧ low % 2 = 0 then low else low + 1

/-- Round the positive value `num / den` to `places` significant digits.  A result `(d, e)`
    stands for `d · 10 ^ (e - places + 1)`, and `d` has exactly `places` digits. -/
def significant (places num den : Nat) : Nat × Int :=
  let power := leadingPower num den
  let shift := (places : Int) - 1 - power
  let digits := nearest (num * tenTo shift.toNat) (den * tenTo (-shift).toNat)
  -- Rounding up can carry into one more digit.
  if digits = tenTo places then (tenTo (places - 1), power + 1) else (digits, power)

/-- The decimal digits of a number, the last zeros left out. -/
def strippedDigits (n : Nat) : List Char :=
  ((Nat.toDigits 10 n).reverse.dropWhile (· == '0')).reverse

/-- Lay digits out with a decimal point after the first `point` of them, filling up with
    zeros on either side.  There is no point when no digit follows it. -/
def positional (digits : List Char) (point : Int) : String :=
  let zeros (n : Int) : List Char := List.replicate n.toNat '0'
  if point ≤ 0 then
    String.ofList ('0' :: '.' :: zeros (-point) ++ digits)
  else if digits.length ≤ point then
    String.ofList (digits ++ zeros (point - digits.length))
  else
    String.ofList (digits.take point.toNat ++ '.' :: digits.drop point.toNat)

/-- Write a minus sign in front of a negative number's text. -/
def withSign (negative : Bool) (text : String) : String :=
  if negative then "-" ++ text else text

end Verse.Numeric
