/-
# The shortest decimal of a double

A double stands for an interval of reals, those that round to it: from halfway to the double below
to halfway to the double above, ends included exactly when the rank is even.  Its shortest decimal
is the point of the coarsest power-of-ten grid that has a point in this interval; of two such points
of one grid, the nearer one.

All quantities are whole multiples of `10 ^ (-1074)`, of which every double is one.  The grid of
exponent `j` holds the multiples of `10 ^ j`; the search starts at a grid too coarse for the
magnitude and descends.  Grid `0` always has a point, the double itself, so the search needs no
other end.
-/
import TypedAttributes.Double.Basic

namespace TypedAttributes

/-- What to do with a decimal whose neighbours on the grid are equally near. -/
inductive Tie where
  /-- Take the larger one. -/
  | up
  /-- Take the one that is an even multiple of the grid. -/
  | toEven
deriving DecidableEq

namespace Double

/-- The magnitude of rank `r` in multiples of `10 ^ (-1074)`. -/
def fineUnits (r : Nat) : Nat := units r * Nat.pow 5 1074

/-- Whether half of `twice`, in multiples of `10 ^ (-1074)`, rounds to the magnitude of rank `r`. -/
def roundsTo (r twice : Nat) : Bool :=
  let low := fineUnits (r - 1) + fineUnits r
  let high := fineUnits r + fineUnits (r + 1)
  if r % 2 = 0 then low ≤ twice && twice ≤ high else low < twice && twice < high

/-- The point of the grid `10 ^ j` that stands for the magnitude of rank `r`, as a multiple of the
grid, if the grid has such a point. -/
def gridPoint (tie : Tie) (r j : Nat) : Option Nat :=
  let step := Nat.pow 10 j
  let value := fineUnits r
  let d := value / step
  match roundsTo r (2 * (d * step)), roundsTo r (2 * ((d + 1) * step)) with
  | true, false => some d
  | false, true => some (d + 1)
  | false, false => none
  | true, true =>
    let middle := (2 * d + 1) * step
    if 2 * value < middle then some d
    else if middle < 2 * value then some (d + 1)
    else match tie with
      | .up => some (d + 1)
      | .toEven => some (d + d % 2)

/-- The first point met on the grids `10 ^ j`, `10 ^ (j - 1)`, …, `1`. -/
def coarsestPoint (tie : Tie) (r : Nat) : Nat → Decimal
  | 0 => ⟨fineUnits r, -1074⟩
  | j + 1 =>
    match gridPoint tie r (j + 1) with
    | some d => ⟨d, (j + 1 : Nat) - 1074⟩
    | none => coarsestPoint tie r j

/-- A grid too coarse for the magnitude of rank `r`: `1233 / 4096` is just below the decimal
logarithm of two. -/
def firstGrid (r : Nat) : Nat :=
  (fineUnits r + fineUnits (r + 1)).log2 * 1233 / 4096 + 1

/-- The shortest decimal that reads back as the magnitude of rank `r`. -/
def shortest (tie : Tie) (r : Nat) : Decimal :=
  if r = 0 then ⟨0, 0⟩ else coarsestPoint tie r (firstGrid r)

end Double

end TypedAttributes
