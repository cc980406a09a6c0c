/-
# Products and quotients of doubles

The product and the quotient of two magnitudes are formed exactly, as quotients of natural numbers,
and then rounded once to the nearest double.  As elsewhere magnitudes are told by their ranks; a
product beyond the finite magnitudes gets a rank beyond theirs.
-/
import TypedAttributes.Double.Rounding

namespace TypedAttributes.Double

/-- The rank of the double nearest to the product of the magnitudes of ranks `r` and `q`.  The
product of their units counts units of units, of which `2 ^ 1074` make a unit. -/
def productRank (r q : Nat) : Nat := nearestRank (units r * units q) (Nat.pow 2 1074)

/-- The rank of the double nearest to the quotient of the magnitude of rank `r` by that of rank
`q`. -/
def quotientRank (r q : Nat) : Nat := nearestRank (units r * Nat.pow 2 1074) (units q)

/-- The rank of the double nearest to `10 ^ k`. -/
def powerRank (k : Nat) : Nat := rankOfNat (Nat.pow 10 k)

/-- The largest power of ten among the finite doubles: the next one is beyond them. -/
example : powerRank 308 < finiteRanks ∧ finiteRanks ≤ powerRank 309 := by decide +kernel

/-- A third rounds to the nearest double, and three times that to one. -/
example : productRank (quotientRank (rankOfNat 1) (rankOfNat 3)) (rankOfNat 3) = rankOfNat 1 := by
  decide +kernel

end TypedAttributes.Double
