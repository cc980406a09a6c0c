/-
# The shortest decimal identifies the double

The decimals that round to a magnitude lie between the halves to its two neighbours.  So the
decimals of two magnitudes have at most an end in common, and that only if the magnitudes are
neighbours; then the end belongs to the one of even rank.  Whatever grid the search for the shortest
decimal stops at, it stops at a decimal that rounds to the magnitude.  Hence two magnitudes with the
same shortest decimal are the same.
-/
import Mathlib.Order.Monotone.Basic
import TypedAttributes.Double.Shortest
import TypedAttributes.Proofs.Double.Nearest

namespace TypedAttributes

/-- A decimal in multiples of `10 ^ (-1074)`, of which it is one if its exponent is not below. -/
def Decimal.fineUnits (d : Decimal) : Nat := d.digits * Nat.pow 10 (d.exponent + 1074).toNat

namespace Double

/-! ## Magnitudes and the decimals around them -/

lemma units_lt_succ (r : Nat) : units r < units (r + 1) := by
  obtain ⟨s, m, rfl, hm, hs⟩ := exists_stretch r
  have hnext : s * fractions + m + 1 = s * fractions + (m + 1) := by omega
  rw [hnext, units_stretch (Nat.le_of_lt hm) hs, units_stretch hm (hs.imp_right Nat.le_succ_of_le)]
  exact Nat.mul_lt_mul_of_pos_right (Nat.lt_succ_self m) (Nat.pow_pos Nat.two_pos)

/-- Magnitudes are in the order of their ranks. -/
lemma fineUnits_strictMono : StrictMono fineUnits := by
  refine strictMono_nat_of_lt_succ fun r => Nat.mul_lt_mul_of_pos_right (units_lt_succ r) ?_
  decide +kernel

/-- What rounds to a magnitude lies between the halves to its neighbours; at odd ranks the ends are
left out. -/
lemma bounds_of_roundsTo {r twice : Nat} (h : roundsTo r twice = true) :
    fineUnits (r - 1) + fineUnits r ≤ twice ∧ twice ≤ fineUnits r + fineUnits (r + 1) ∧
      (r % 2 = 1 → fineUnits (r - 1) + fineUnits r < twice ∧
        twice < fineUnits r + fineUnits (r + 1)) := by
  rw [roundsTo] at h
  split at h
  next heven =>
    simp only [Bool.and_eq_true, decide_eq_true_eq] at h
    exact ⟨h.1, h.2, by omega⟩
  next hodd =>
    simp only [Bool.and_eq_true, decide_eq_true_eq] at h
    exact ⟨Nat.le_of_lt h.1, Nat.le_of_lt h.2, fun _ => h⟩

lemma not_roundsTo_of_lt {r q twice : Nat} (hlt : r < q) (hr : roundsTo r twice = true) :
    ¬ roundsTo q twice = true := by
  intro hq
  obtain ⟨-, hbelow, hodd⟩ := bounds_of_roundsTo hr
  obtain ⟨habove, -, hodd'⟩ := bounds_of_roundsTo hq
  have hfirst : fineUnits r ≤ fineUnits (q - 1) := fineUnits_strictMono.monotone (by omega)
  have hsecond : fineUnits (r + 1) ≤ fineUnits q := fineUnits_strictMono.monotone hlt
  rcases Nat.lt_or_ge (r + 1) q with hfar | hnear
  · have hgap : fineUnits (r + 1) < fineUnits q := fineUnits_strictMono hfar
    omega
  · -- neighbours have one end in common, which is left out of the one of odd rank
    obtain rfl : q = r + 1 := by omega
    rcases Nat.mod_two_eq_zero_or_one r with heven | hodd''
    · have hstrict := hodd' (by omega)
      omega
    · have hstrict := hodd hodd''
      omega

/-- Nothing rounds to two magnitudes. -/
lemma eq_of_roundsTo {r q twice : Nat} (hr : roundsTo r twice = true)
    (hq : roundsTo q twice = true) : r = q := by
  rcases Nat.lt_trichotomy r q with hlt | heq | hgt
  · exact absurd hq (not_roundsTo_of_lt hlt hr)
  · exact heq
  · exact absurd hr (not_roundsTo_of_lt hgt hq)

/-- A magnitude rounds to itself. -/
lemma roundsTo_self (r : Nat) : roundsTo r (2 * fineUnits r) = true := by
  have hbelow : fineUnits (r - 1) ≤ fineUnits r := fineUnits_strictMono.monotone (Nat.sub_le r 1)
  have habove : fineUnits r < fineUnits (r + 1) := fineUnits_strictMono (Nat.lt_succ_self r)
  rw [roundsTo]
  split
  next =>
    simp only [Bool.and_eq_true, decide_eq_true_eq]
    omega
  next hodd =>
    have hstrict : fineUnits (r - 1) < fineUnits r := fineUnits_strictMono (by omega)
    simp only [Bool.and_eq_true, decide_eq_true_eq]
    omega

/-! ## The search -/

/-- The point of a grid that stands for a magnitude rounds to it. -/
lemma roundsTo_of_gridPoint {tie : Tie} {r j d : Nat} (h : gridPoint tie r j = some d) :
    roundsTo r (2 * (d * Nat.pow 10 j)) = true := by
  simp only [gridPoint] at h
  split at h
  next hlow _ =>
    cases h
    exact hlow
  next _ hhigh =>
    cases h
    exact hhigh
  next => cases h
  next hlow hhigh =>
    -- both neighbours on the grid round to the magnitude, and one of them is taken
    have hchosen : d = fineUnits r / Nat.pow 10 j ∨ d = fineUnits r / Nat.pow 10 j + 1 := by
      have hparity : fineUnits r / Nat.pow 10 j % 2 = 0 ∨ fineUnits r / Nat.pow 10 j % 2 = 1 :=
        Nat.mod_two_eq_zero_or_one _
      split at h
      · exact Or.inl (Option.some.inj h).symm
      · split at h
        · exact Or.inr (Option.some.inj h).symm
        · cases tie with
          | up => exact Or.inr (Option.some.inj h).symm
          | toEven =>
            have heven := (Option.some.inj h).symm
            exact hparity.imp (fun hzero => by rw [heven, hzero]; rfl)
              (fun hone => by rw [heven, hone])
    obtain rfl | rfl := hchosen
    · exact hlow
    · exact hhigh

/-- Whatever grid the search starts from, it ends at a decimal that rounds to the magnitude. -/
lemma roundsTo_coarsestPoint (tie : Tie) (r j : Nat) :
    -1074 ≤ (coarsestPoint tie r j).exponent ∧
      roundsTo r (2 * (coarsestPoint tie r j).fineUnits) = true := by
  induction j with
  | zero =>
    have hself : (coarsestPoint tie r 0).fineUnits = fineUnits r := Nat.mul_one _
    exact ⟨Int.le_refl _, hself ▸ roundsTo_self r⟩
  | succ j ih =>
    rw [coarsestPoint]
    cases hpoint : gridPoint tie r (j + 1) with
    | none => exact ih
    | some d =>
      have hexponent : ((j + 1 : Nat) - 1074 + 1074 : Int).toNat = j + 1 := by omega
      refine ⟨by simp only; omega, ?_⟩
      simp only [Decimal.fineUnits, hexponent]
      exact roundsTo_of_gridPoint hpoint

lemma roundsTo_shortest (tie : Tie) (r : Nat) :
    -1074 ≤ (shortest tie r).exponent ∧ roundsTo r (2 * (shortest tie r).fineUnits) = true := by
  rw [shortest]
  split
  next hzero =>
    subst hzero
    have hself : (⟨0, 0⟩ : Decimal).fineUnits = fineUnits 0 := by decide +kernel
    exact ⟨by decide, hself ▸ roundsTo_self 0⟩
  next => exact roundsTo_coarsestPoint tie r _

/-- Magnitudes whose shortest decimals are worth the same are the same. -/
lemma eq_of_shortest (tie : Tie) {r q : Nat}
    (h : (shortest tie r).fineUnits = (shortest tie q).fineUnits) : r = q :=
  eq_of_roundsTo (roundsTo_shortest tie r).2 (h ▸ (roundsTo_shortest tie q).2)

end Double

end TypedAttributes
