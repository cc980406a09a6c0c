/-
# Reading a numeral in steps

The number of a JSON text is read in steps, each of which rounds.  The digits are gathered into a
64-bit word, the word becomes the nearest double, and this double is multiplied or divided by the
double nearest to a power of ten.

When the word is below `2 ^ 53` and the power at most `10 ^ 22`, both are doubles and there is one
rounding only, so that what is read is the double nearest to the numeral.  In general it may be a
neighbour of that one, and a numeral just below the bound of the doubles may be found to be beyond
it.
-/
import TypedAttributes.Numeral
import TypedAttributes.Double.Arithmetic
import TypedAttributes.Double.Text

namespace TypedAttributes.Numeral

/-- Gathers digits behind those of `n` as long as the number stays below `2 ^ 64`.  Gives the number
and how many digits were left out. -/
def gatherDigits (n : Nat) : List (Fin 10) → Nat × Nat
  | [] => (n, 0)
  | d :: rest =>
    if 10 * n + d.val < 0x10000000000000000 then gatherDigits (10 * n + d.val) rest
    else (n, rest.length + 1)

/-- The digits of a numeral that a word holds, with the power of ten that goes with them.  Digits
left out before the point raise the power, digits gathered after the point lower it.  The digits
after the point are tried even if some before it were left out. -/
def gathered (n : Numeral) : Decimal :=
  let (whole, omitted) := gatherDigits 0 n.whole
  let (digits, omittedAfter) := gatherDigits whole n.fraction
  ⟨digits, n.exponent?.getD 0 + omitted - (n.fraction.length - omittedAfter)⟩

/-- Divides the magnitude of rank `r` so many times by `10 ^ 308`, rounding each time. -/
def lowered (r : Nat) : Nat → Nat
  | 0 => r
  | times + 1 => if r = 0 then 0 else lowered (Double.quotientRank r (Double.powerRank 308)) times

/-- The magnitude of rank `r` times a power of ten, if it stays finite.  Powers of which there is no
finite double are too large for every magnitude but zero, and are divided by in parts. -/
def scaled? (r : Nat) : Int → Option Nat
  | .ofNat k =>
    if r = 0 then some 0
    else if 308 < k then none
    else
      let product := Double.productRank r (Double.powerRank k)
      if product < Double.finiteRanks then some product else none
  | .negSucc k =>
    some (Double.quotientRank (lowered r (k / 308)) (Double.powerRank (k % 308 + 1)))

/-- The double that is read from a numeral in steps; nothing if it is beyond the finite ones. -/
def stepwise? (n : Numeral) : Option Double :=
  let d := n.gathered
  (scaled? (Double.rankOfNat d.digits) d.exponent).map (Double.ofRank n.negative)

/-- Ten to the power of minus 23 is beyond the exact powers, and a neighbour of the nearest double
is read. -/
example :
    (ofString? "1e-23").map (fun n => (n.toDouble.text, n.stepwise?.map Double.text)) =
      some ("0.00000000000000000000001", some "0.000000000000000000000010000000000000001") := by
  decide +kernel

end TypedAttributes.Numeral
