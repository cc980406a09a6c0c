/-
# Rounding to the nearest double

Between two powers of two the magnitudes are evenly spaced, and `Double.nearestRank` rounds to a
multiple of this spacing.  What has to be shown is that nothing outside of the stretch between the
two powers is nearer: the magnitudes outside of it are beyond one of its ends, and both ends are
multiples of the spacing.  The rank that is found is bounded by the length of the quotient in bits,
so an integer that fits a word of 64 bits, which is far from the largest finite double, is rounded
to a finite one.
-/
import Mathlib.Tactic.Common
import Mathlib.Data.Nat.Dist
import TypedAttributes.Double.Rounding

namespace TypedAttributes

/-- Rounding goes down if that is no further than going up, and else up. -/
lemma divNearest_cases (n d : Nat) :
    divNearest n d = n / d ∧ 2 * (n % d) ≤ d ∨ divNearest n d = n / d + 1 ∧ d ≤ 2 * (n % d) := by
  have hparity : n / d % 2 = 0 ∨ n / d % 2 = 1 := Nat.mod_two_eq_zero_or_one _
  simp only [divNearest]
  split
  · omega
  · split <;> omega

/-- Of all multiples of the divisor, that by the rounded quotient is nearest. -/
lemma dist_divNearest_le (n k : Nat) {d : Nat} (hd : 0 < d) :
    Nat.dist (divNearest n d * d) n ≤ Nat.dist (k * d) n := by
  have hdiv : n / d * d + n % d = n := by
    rw [Nat.mul_comm]
    exact Nat.div_add_mod n d
  have hmod : n % d < d := Nat.mod_lt n hd
  -- a multiple is at most that by the quotient or at least the next one
  have hk : k * d ≤ n / d * d ∨ n / d * d + d ≤ k * d := by
    rcases Nat.lt_or_ge (n / d) k with hlt | hle
    · rw [← Nat.succ_mul]
      exact Or.inr (Nat.mul_le_mul_right d hlt)
    · exact Or.inl (Nat.mul_le_mul_right d hle)
  simp only [Nat.dist]
  obtain ⟨hchosen, hless⟩ | ⟨hchosen, hmore⟩ := divNearest_cases n d
  · rw [hchosen]
    omega
  · rw [hchosen, Nat.succ_mul]
    omega

namespace Double

/-- The magnitudes of a stretch are the multiples of a power of two. -/
lemma units_stretch {s m : Nat} (hm : m ≤ 2 * fractions) (hs : s = 0 ∨ fractions ≤ m) :
    units (s * fractions + m) = m * Nat.pow 2 s := by
  simp only [units]
  rcases Nat.lt_or_ge m fractions with hsmall | hlarge
  · obtain rfl : s = 0 := by omega
    rw [Nat.zero_mul, Nat.zero_add, if_pos hsmall]
    exact (Nat.mul_one m).symm
  · rw [if_neg (by omega)]
    rcases Nat.lt_or_ge m (2 * fractions) with hinner | hend
    · have hquotient : (s * fractions + m) / fractions - 1 = s := by unfold fractions at *; omega
      have hremainder : (s * fractions + m) % fractions = m - fractions := by
        unfold fractions at *; omega
      rw [hquotient, hremainder, Nat.add_sub_cancel' hlarge]
    · -- the end of a stretch is the first magnitude of the next one
      obtain rfl : m = 2 * fractions := by omega
      have hquotient : (s * fractions + 2 * fractions) / fractions - 1 = s + 1 := by
        unfold fractions; omega
      have hremainder : (s * fractions + 2 * fractions) % fractions = 0 := by
        unfold fractions; omega
      rw [hquotient, hremainder, Nat.add_zero, Nat.mul_comm 2 fractions, Nat.mul_assoc]
      exact congrArg (fractions * ·) (Nat.pow_succ'.trans rfl)

/-- A stretch ends where a later one starts, or before. -/
lemma stretch_end_le {t s : Nat} (h : t < s) (d : Nat) :
    2 * fractions * (d * Nat.pow 2 t) ≤ fractions * (d * Nat.pow 2 s) := by
  calc 2 * fractions * (d * Nat.pow 2 t) = fractions * (d * (Nat.pow 2 t * 2)) := by
        simp only [Nat.mul_comm, Nat.mul_left_comm, Nat.mul_assoc]
    _ ≤ fractions * (d * Nat.pow 2 s) :=
        Nat.mul_le_mul_left _ (Nat.mul_le_mul_left _ (Nat.pow_le_pow_right Nat.two_pos h))

/-- Every rank belongs to a stretch. -/
lemma exists_stretch (r : Nat) :
    ∃ s m, r = s * fractions + m ∧ m < 2 * fractions ∧ (s = 0 ∨ fractions ≤ m) := by
  rcases Nat.lt_or_ge r fractions with hsmall | hlarge
  · exact ⟨0, r, by omega, by omega, Or.inl rfl⟩
  · refine ⟨r / fractions - 1, r % fractions + fractions, ?_, ?_, Or.inr (Nat.le_add_left _ _)⟩ <;>
      unfold fractions at * <;> omega

/-- The stretch that a quotient is rounded in is the one that it lies in. -/
lemma div_stretch_bounds {n d s : Nat} (hs : Nat.log2 (n / d) - 52 = s) :
    n / (d * Nat.pow 2 s) < 2 * fractions ∧ (s = 0 ∨ fractions ≤ n / (d * Nat.pow 2 s)) := by
  rw [← Nat.div_div_eq_div_mul]
  constructor
  · refine Nat.div_lt_of_lt_mul ?_
    calc n / d < 2 ^ (Nat.log2 (n / d) + 1) := Nat.lt_log2_self
      _ ≤ 2 ^ (s + 53) := Nat.pow_le_pow_right (by decide) (by omega)
      _ = Nat.pow 2 s * (2 * fractions) := by rw [Nat.pow_add]; rfl
  · rcases Nat.eq_zero_or_pos s with hzero | hpos
    · exact Or.inl hzero
    · have hne : n / d ≠ 0 := by
        intro hzero
        rw [hzero, Nat.log2_zero] at hs
        omega
      refine Or.inr ((Nat.le_div_iff_mul_le (Nat.pow_pos (by decide))).2 ?_)
      calc fractions * Nat.pow 2 s = 2 ^ (52 + s) := (Nat.pow_add 2 52 s).symm
        _ ≤ 2 ^ Nat.log2 (n / d) := Nat.pow_le_pow_right (by decide) (by omega)
        _ ≤ n / d := Nat.log2_self_le hne

/-- No magnitude is nearer to a quotient than the one that it is rounded to. -/
theorem dist_nearestRank_le (n r : Nat) {d : Nat} (hd : 0 < d) :
    Nat.dist (units (nearestRank n d) * d) n ≤ Nat.dist (units r * d) n := by
  rw [nearestRank]
  generalize hs : Nat.log2 (n / d) - 52 = s
  obtain ⟨hless, hmore⟩ := div_stretch_bounds hs
  have hstep : 0 < d * Nat.pow 2 s := Nat.mul_pos hd (Nat.pow_pos (by decide))
  have hunits {t m : Nat} (hm : m ≤ 2 * fractions) (ht : t = 0 ∨ fractions ≤ m) :
      units (t * fractions + m) * d = m * (d * Nat.pow 2 t) := by
    rw [units_stretch hm ht, Nat.mul_assoc, Nat.mul_comm d]
  -- the magnitudes of the stretch are multiples of the step; those outside are beyond one of its
  -- ends
  obtain ⟨k, hk⟩ : ∃ k, Nat.dist (k * (d * Nat.pow 2 s)) n ≤ Nat.dist (units r * d) n := by
    obtain ⟨t, m, rfl, hm, ht⟩ := exists_stretch r
    rw [hunits (Nat.le_of_lt hm) ht]
    rcases Nat.lt_trichotomy t s with hbelow | rfl | habove
    · have hstart := (Nat.le_div_iff_mul_le hstep).1 (hmore.resolve_left (by omega))
      have hfar : m * (d * Nat.pow 2 t) ≤ fractions * (d * Nat.pow 2 s) :=
        Nat.le_trans (Nat.mul_le_mul_right _ (Nat.le_of_lt hm)) (stretch_end_le hbelow d)
      refine ⟨fractions, ?_⟩
      simp only [Nat.dist]
      omega
    · exact ⟨m, Nat.le_refl _⟩
    · have hend := (Nat.div_lt_iff_lt_mul hstep).1 hless
      have hfar : 2 * fractions * (d * Nat.pow 2 s) ≤ m * (d * Nat.pow 2 t) :=
        Nat.le_trans (stretch_end_le habove d) (Nat.mul_le_mul_right _ (ht.resolve_left (by omega)))
      refine ⟨2 * fractions, ?_⟩
      simp only [Nat.dist]
      omega
  have hchosen := divNearest_cases n (d * Nat.pow 2 s)
  rw [hunits (by omega) (by omega)]
  exact Nat.le_trans (dist_divNearest_le n k hstep) hk

/-- A quotient of so many bits has a rank within so many stretches of ranks. -/
lemma nearestRank_le (n d : Nat) : nearestRank n d ≤ (Nat.log2 (n / d) - 52 + 2) * fractions := by
  rw [nearestRank]
  generalize hs : Nat.log2 (n / d) - 52 = s
  obtain ⟨hless, -⟩ := div_stretch_bounds hs
  have hchosen := divNearest_cases n (d * Nat.pow 2 s)
  rw [Nat.add_mul]
  omega

/-! ## Doubles nearest to integers -/

/-- The rank that a product is rounded to is bounded by the bits of both factors. -/
lemma nearestRank_mul_le {n unit k m : Nat} (hn : n < Nat.pow 2 k) (hunit : unit < Nat.pow 2 m) :
    nearestRank (n * unit) 1 ≤ (k + m + 2) * fractions := by
  have hbits : Nat.log2 (n * unit) ≤ k + m := by
    rcases Nat.eq_zero_or_pos (n * unit) with hzero | hpos
    · rw [hzero, Nat.log2_zero]
      exact Nat.zero_le _
    · have hproduct : n * unit < 2 ^ (k + m) := by
        rw [Nat.pow_add]
        exact Nat.mul_lt_mul'' hn hunit
      exact Nat.le_of_lt ((Nat.log2_lt (Nat.ne_of_gt hpos)).2 hproduct)
  have hrank := nearestRank_le (n * unit) 1
  rw [Nat.div_one] at hrank
  exact Nat.le_trans hrank (Nat.mul_le_mul_right _ (by omega))

/-- Magnitudes of at most 64 bits have finite ranks. -/
lemma rankOfNat_lt {n : Nat} (h : n ≤ 0x10000000000000000) : rankOfNat n < finiteRanks := by
  have hbits : n < Nat.pow 2 65 := Nat.lt_of_le_of_lt h (by decide)
  calc rankOfNat n ≤ (65 + 1075 + 2) * fractions := nearestRank_mul_le hbits (by decide +kernel)
    _ < finiteRanks := by decide

/-- The number of units that make one. -/
def unitsPerOne : Nat := Nat.pow 2 1074

lemma rankOfNat_eq (n : Nat) : rankOfNat n = nearestRank (n * unitsPerOne) 1 := by
  unfold rankOfNat unitsPerOne
  with_reducible rfl

lemma dist_rankOfNat_le (n r : Nat) :
    Nat.dist (units (rankOfNat n)) (n * unitsPerOne) ≤ Nat.dist (units r) (n * unitsPerOne) := by
  have hnearest := dist_nearestRank_le (n * unitsPerOne) r Nat.one_pos
  rwa [Nat.mul_one, Nat.mul_one, ← rankOfNat_eq] at hnearest

/-- The double nearest to an integer of at most 64 bits has the sign of the integer, and the rank
that its magnitude is rounded to. -/
lemma ofInt_eq {i : Int} (h : i.natAbs ≤ 0x10000000000000000) :
    ofInt i = .finite (i < 0) ⟨rankOfNat i.natAbs, rankOfNat_lt h⟩ := by
  rw [ofInt, ofDecimal]
  split
  next hzero =>
    have hrank : rankOfNat 0 = 0 := by decide +kernel
    obtain rfl : i = 0 := Int.natAbs_eq_zero.1 hzero
    simp only [Int.natAbs_zero, hrank]
    rfl
  next hne =>
    rw [if_neg (by simp), if_neg (by dsimp only; omega)]
    change ofRank (i < 0) (nearestRank (i.natAbs * 1 * Nat.pow 2 1074) 1) = _
    rw [Nat.mul_one]
    exact dif_pos (rankOfNat_lt h)

/-- The double nearest to an integer of at most 64 bits is finite. -/
lemma isFinite_ofInt {i : Int} (h : i.natAbs ≤ 0x10000000000000000) :
    (ofInt i).isFinite = true := by
  rw [ofInt_eq h]
  rfl

/-- A finite double in units, with its sign. -/
def signedUnits : Double → Int
  | .finite negative rank => if negative then -(units rank : Int) else units rank
  | _ => 0

/-- No finite double is nearer to an integer of at most 64 bits than the one that it is rounded
to. -/
theorem natAbs_ofInt_sub_le {i : Int} (h : i.natAbs ≤ 0x10000000000000000) {other : Double}
    (hother : other.isFinite = true) :
    ((ofInt i).signedUnits - i * unitsPerOne).natAbs ≤
      (other.signedUnits - i * unitsPerOne).natAbs := by
  rw [ofInt_eq h]
  cases other with
  | nan => cases hother
  | infinite negative => cases hother
  | finite negative rank =>
    have hnearest := dist_rankOfNat_le i.natAbs rank
    have hsize : (i * unitsPerOne).natAbs = i.natAbs * unitsPerOne := by
      rw [Int.natAbs_mul, Int.natAbs_natCast]
    have hsign : i < 0 ∧ i * unitsPerOne ≤ 0 ∨ 0 ≤ i ∧ 0 ≤ i * unitsPerOne := by
      rcases Int.lt_or_le i 0 with hneg | hpos
      · exact Or.inl
          ⟨hneg, Int.mul_nonpos_of_nonpos_of_nonneg (Int.le_of_lt hneg) (Int.natCast_nonneg _)⟩
      · exact Or.inr ⟨hpos, Int.mul_nonneg hpos (Int.natCast_nonneg _)⟩
    -- a double of the other sign is further away than the one of the same rank
    rw [← hsize] at hnearest
    simp only [signedUnits, Nat.dist, decide_eq_true_eq] at *
    generalize i * unitsPerOne = exact at *
    cases negative <;> split <;> simp only [Bool.false_eq_true, if_true, if_false] <;> omega

end Double

end TypedAttributes
