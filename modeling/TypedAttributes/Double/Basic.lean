/-
# Double-precision numbers

The numbers of wire values are IEEE 754 binary64 numbers.  They are read, compared, stored and
written, and only in reading are two of them ever multiplied or divided.  So a double is described
by what identifies it.

The finite magnitudes are finitely many and linearly ordered; the *rank* of a magnitude is its
position in that order.  Rank `0` is zero, rank `1` the smallest positive magnitude, and the ranks
below `2047 * 2 ^ 52` are exactly the finite ones: the quotient of a rank by `2 ^ 52` is the
exponent field of the usual bit pattern and the remainder is the fraction field.  Every magnitude is
a whole multiple of the smallest one, and `Double.units` says which multiple; this makes all later
arithmetic an arithmetic of natural numbers.
-/
namespace TypedAttributes

/-- The number of fractions that go with one exponent, `2 ^ 52`. -/
abbrev Double.fractions : Nat := 0x10000000000000

/-- The number of finite magnitudes: there are 2047 exponents. -/
abbrev Double.finiteRanks : Nat := 2047 * Double.fractions

/-- A double-precision number.  All not-a-numbers are one value, and zero has two signs. -/
inductive Double where
  /-- Not a number. -/
  | nan
  /-- Positive or negative infinity. -/
  | infinite (negative : Bool)
  /-- The number with the given sign whose magnitude has the given rank. -/
  | finite (negative : Bool) (rank : Fin Double.finiteRanks)
deriving DecidableEq

/-- The decimal `digits * 10 ^ exponent`.  Doubles are read from decimals and written as
decimals. -/
structure Decimal where
  digits : Nat
  exponent : Int
deriving DecidableEq

namespace Double

/-- The magnitude of rank `r` as a multiple of the smallest positive magnitude, which is
`2 ^ (-1074)`.  The definition goes on above the finite ranks: the first rank after them is worth
`2 ^ 1024`. -/
def units (r : Nat) : Nat :=
  if r < fractions then r else (fractions + r % fractions) * Nat.pow 2 (r / fractions - 1)

/-- The number of the given sign and rank; ranks beyond the finite ones give infinity. -/
def ofRank (negative : Bool) (r : Nat) : Double :=
  if h : r < finiteRanks then .finite negative ⟨r, h⟩ else .infinite negative

/-- Positive zero. -/
def zero : Double := .finite false ⟨0, by decide⟩

instance : Inhabited Double := ⟨zero⟩

/-- Equality of numbers: `nan` equals nothing, itself included, and the two zeros are equal. -/
def equal : Double → Double → Bool
  | .infinite s, .infinite t => s == t
  | .finite s r, .finite t q => r == q && (s == t || r.val == 0)
  | _, _ => false

/-- Whether the number is neither `nan` nor an infinity. -/
def isFinite : Double → Bool
  | .finite _ _ => true
  | _ => false

/-- Whether the number is `nan`. -/
def isNaN : Double → Bool
  | .nan => true
  | _ => false

/-- Equality is symmetric. -/
theorem equal_comm (a b : Double) : a.equal b = b.equal a := by
  rw [Bool.eq_iff_iff]
  cases a <;> cases b <;> grind [equal]

/-- Equality is transitive. -/
theorem equal_trans {a b c : Double} (hab : a.equal b = true) (hbc : b.equal c = true) :
    a.equal c = true := by
  cases a <;> cases b <;> cases c <;> grind [equal]

/-- A double equals itself exactly when it is a number. -/
theorem equal_self (a : Double) : a.equal a = !a.isNaN := by
  cases a <;> simp [equal, isNaN]

end Double

end TypedAttributes
