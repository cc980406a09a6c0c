/-
# The double nearest to a decimal

A decimal `digits * 10 ^ exponent` is read as the double nearest to it; of two equally near doubles
the one of even rank is taken, and magnitudes from halfway above the largest finite one on become
infinite.

Everything is done in natural numbers, in multiples of the smallest positive double.  Between two
powers of two the doubles are evenly spaced, so rounding to the nearest double is rounding one
quotient to the nearest whole number.
-/
import TypedAttributes.Double.Basic

namespace TypedAttributes

/-- The quotient `n / d` rounded to the nearest whole number, halves to the even one. -/
def divNearest (n d : Nat) : Nat :=
  let q := n / d
  let r := n % d
  if 2 * r < d then q else if d < 2 * r then q + 1 else q + q % 2

namespace Double

/-- The rank of the double nearest to `n / d` units.  Doubles below `2 ^ 53` units are one unit
apart; from `2 ^ (52 + s)` to `2 ^ (53 + s)` units they are `2 ^ s` units apart and the first of
them has rank `s * 2 ^ 52 + 2 ^ 52`.  A quotient that rounds up to `2 ^ (53 + s)` gets the first
rank of the next stretch. -/
def nearestRank (n d : Nat) : Nat :=
  let s := Nat.log2 (n / d) - 52
  s * fractions + divNearest n (d * Nat.pow 2 s)

/-- The rank of the double nearest to a natural number. -/
def rankOfNat (n : Nat) : Nat := nearestRank (n * Nat.pow 2 1074) 1

/-- The double nearest to a decimal, with the given sign.

Decimals of `10 ^ 310` and more are infinite and those below `10 ^ (-330)` are zero; saying so first
keeps huge exponents from building huge numbers. -/
def ofDecimal (negative : Bool) (d : Decimal) : Double :=
  if d.digits = 0 then ofRank negative 0
  else if 310 ≤ d.exponent then .infinite negative
  else if d.exponent + d.digits.log2 / 3 + 1 < -330 then ofRank negative 0
  else
    ofRank negative
      (nearestRank (d.digits * Nat.pow 10 d.exponent.toNat * Nat.pow 2 1074)
        (Nat.pow 10 (-d.exponent).toNat))

/-- The double nearest to an integer. -/
def ofInt (i : Int) : Double := ofDecimal (i < 0) ⟨i.natAbs, 0⟩

end Double

end TypedAttributes
