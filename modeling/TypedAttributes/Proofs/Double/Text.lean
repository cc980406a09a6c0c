/-
# The text of a double identifies it

Displayed doubles are written without an exponent: the digits of the shortest decimal are laid out
around a decimal point, and zeros fill the places between the digits and the point.  Read back, the
text tells the shortest decimal again, though not where the digits ended; and that identifies the
magnitude.  The sign and the words for what is not finite are told apart by their characters.
-/
import Mathlib.Data.List.Basic
import TypedAttributes.Double.Text
import TypedAttributes.Proofs.Double.Shortest

namespace TypedAttributes

namespace DoubleStyle

/-! ## Reading a text back -/

/-- What digits around a decimal point tell, as a multiple of the unit of the given decimal
place. -/
def told (places : Nat) (chars : List Char) : Nat :=
  let point := chars.idxOf '.'
  let fraction := chars.drop (point + 1)
  Nat.ofDigitChars 10 (chars.take point) 0 * Nat.pow 10 places +
    Nat.ofDigitChars 10 fraction 0 * Nat.pow 10 (places - fraction.length)

variable {places : Nat} {whole fraction : List Char}

lemma told_whole (h : '.' ∉ whole) :
    told places whole = Nat.ofDigitChars 10 whole 0 * Nat.pow 10 places := by
  have hpoint : whole.idxOf '.' = whole.length := List.idxOf_eq_length_iff.2 h
  have hnone : whole.drop (whole.length + 1) = [] := List.drop_eq_nil_of_le (Nat.le_succ _)
  rw [told, hpoint, List.take_length, hnone, Nat.ofDigitChars_nil, Nat.zero_mul, Nat.add_zero]

lemma told_point (h : '.' ∉ whole) : told places (whole ++ '.' :: fraction) =
    Nat.ofDigitChars 10 whole 0 * Nat.pow 10 places +
      Nat.ofDigitChars 10 fraction 0 * Nat.pow 10 (places - fraction.length) := by
  have hpoint : (whole ++ '.' :: fraction).idxOf '.' = whole.length := by
    rw [List.idxOf_append_of_notMem h, List.idxOf_cons_self, Nat.add_zero]
  have hbehind : (whole ++ '.' :: fraction).drop (whole.length + 1) = fraction := by simp
  rw [told, hpoint, List.take_left, hbehind]

lemma not_mem_toDigits {c : Char} (h : c.isDigit = false) (n : Nat) : c ∉ Nat.toDigits 10 n := by
  intro hmem
  have hdigit := Nat.isDigit_of_mem_toDigits (by decide) (by decide) hmem
  rw [h] at hdigit
  cases hdigit

/-- A text tells the decimal that was laid out. -/
lemma told_layPositional (n : Nat) {exponent : Int} (h : -(places : Int) ≤ exponent) :
    told places (layPositional false (Nat.toDigits 10 n) ((Nat.toDigits 10 n).length + exponent)) =
      n * Nat.pow 10 (exponent + places).toNat := by
  have hpoint : '.' ∉ Nat.toDigits 10 n := not_mem_toDigits (by decide) n
  have hvalue : Nat.ofDigitChars 10 (Nat.toDigits 10 n) 0 = n := Nat.ofDigitChars_ten_toDigits
  generalize Nat.toDigits 10 n = digits at hpoint hvalue
  simp only [layPositional]
  split
  next hleft =>
    -- the digits stand behind the point and some zeros
    have hlength :
        places - (List.replicate (-((digits.length : Int) + exponent)).toNat '0' ++ digits).length =
        (exponent + places).toNat := by
      rw [List.length_append, List.length_replicate]
      omega
    rw [← List.singleton_append, told_point (by decide), hlength, Nat.ofDigitChars_append,
      Nat.ofDigitChars_replicate_zero, Nat.mul_zero, hvalue]
    simp [Nat.ofDigitChars_cons]
  next hright =>
    split
    next hlong =>
      -- the digits stand before the point, with some zeros behind them
      have hexponent :
          ((digits.length : Int) + exponent).toNat - digits.length = exponent.toNat := by omega
      have hsum : (exponent + places).toNat = exponent.toNat + places := by omega
      have hwhole : '.' ∉ digits ++ List.replicate exponent.toNat '0' := by simp [hpoint]
      rw [hexponent, if_neg Bool.false_ne_true, List.append_nil, told_whole hwhole,
        Nat.ofDigitChars_append, Nat.ofDigitChars_replicate_zero, hvalue, hsum]
      simp only [Nat.pow_eq, Nat.pow_add]
      rw [Nat.mul_comm (10 ^ exponent.toNat), Nat.mul_assoc]
    next hshort =>
      -- the point stands among the digits
      generalize hplace : ((digits.length : Int) + exponent).toNat = place at hshort ⊢
      have hbehind : (digits.drop place).length = digits.length - place := List.length_drop
      have hrest : places - (digits.length - place) = (exponent + places).toNat := by omega
      have hpower : Nat.pow 10 places =
          Nat.pow 10 (digits.length - place) * Nat.pow 10 (exponent + places).toNat := by
        have hplaces : places = digits.length - place + (exponent + places).toNat := by omega
        exact (congrArg (Nat.pow 10) hplaces).trans (Nat.pow_add _ _ _)
      have hsplit := congrArg (Nat.ofDigitChars 10 · 0) (List.take_append_drop place digits)
      simp only [Nat.ofDigitChars_append, hvalue] at hsplit
      rw [Nat.ofDigitChars_eq_ofDigitChars_zero, hbehind, ← Nat.pow_eq] at hsplit
      rw [told_point fun h => hpoint (List.mem_of_mem_take h), hbehind, hrest, hpower,
        ← hsplit, Nat.add_mul, Nat.mul_left_comm, Nat.mul_assoc]

/-! ## The text of a finite number -/

/-- The characters of a text are digits and the point. -/
lemma isDigit_or_point {digits : List Char} {point : Int}
    (hdigits : ∀ c ∈ digits, c.isDigit = true) {c : Char}
    (h : c ∈ layPositional false digits point) : c.isDigit = true ∨ c = '.' := by
  have hzero (n : Nat) (hc : c ∈ List.replicate n '0') : c.isDigit = true := by
    obtain rfl := List.eq_of_mem_replicate hc
    rfl
  simp only [layPositional] at h
  split at h
  next =>
    simp only [List.mem_cons, List.mem_append] at h
    obtain rfl | rfl | hc | hc := h
    · exact Or.inl rfl
    · exact Or.inr rfl
    · exact Or.inl (hzero _ hc)
    · exact Or.inl (hdigits c hc)
  next =>
    split at h
    next =>
      simp only [List.mem_append, Bool.false_eq_true, if_false, List.not_mem_nil, or_false] at h
      exact Or.inl (h.elim (hdigits c) (hzero _))
    next =>
      simp only [List.mem_append, List.mem_cons] at h
      obtain hc | rfl | hc := h
      · exact Or.inl (hdigits c (List.mem_of_mem_take hc))
      · exact Or.inr rfl
      · exact Or.inl (hdigits c (List.mem_of_mem_drop hc))

/-- The digits and the point of the text of a magnitude. -/
def plainBody (rank : Nat) : List Char := plain.layDecimal (Double.shortest .up rank)

lemma plain_text (negative : Bool) (rank : Nat) : (plain.text negative rank).toList =
    if negative then '-' :: plainBody rank else plainBody rank := by
  rw [text, String.toList_ofList]
  rfl

lemma mem_plainBody {rank : Nat} {c : Char} (h : c ∈ plainBody rank) : c.isDigit = true ∨ c = '.' :=
  isDigit_or_point (fun _ hc => Nat.isDigit_of_mem_toDigits (by decide) (by decide) hc) h

/-- Read back, the text of a magnitude tells its shortest decimal. -/
lemma told_plainBody (rank : Nat) :
    told 1074 (plainBody rank) = (Double.shortest .up rank).fineUnits :=
  told_layPositional _ (Double.roundsTo_shortest .up rank).1

lemma plainBody_injective : Function.Injective plainBody := by
  intro r q h
  refine Double.eq_of_shortest .up ?_
  rw [← told_plainBody, ← told_plainBody, h]

end DoubleStyle

namespace Double

open DoubleStyle

lemma text_finite (negative : Bool) (rank : Fin finiteRanks) : (finite negative rank).text.toList =
    if negative then '-' :: plainBody rank else plainBody rank := plain_text negative rank

/-- The text of a finite number consists of digits, the point and the sign. -/
lemma mem_text_finite {negative : Bool} {rank : Fin finiteRanks} {c : Char}
    (h : c ∈ (finite negative rank).text.toList) : c.isDigit = true ∨ c = '.' ∨ c = '-' := by
  rw [text_finite] at h
  split at h
  next =>
    obtain rfl | h := List.mem_cons.1 h
    · exact Or.inr (Or.inr rfl)
    · exact (mem_plainBody h).imp_right Or.inl
  next => exact (mem_plainBody h).imp_right Or.inl

/-- The words for what is not a finite number have a letter in them. -/
lemma exists_letter {d : Double} (h : d.isFinite = false) :
    ∃ c ∈ d.text.toList, ¬ (c.isDigit = true ∨ c = '.' ∨ c = '-') := by
  cases d with
  | nan => exact ⟨'N', by decide, by decide⟩
  | infinite negative => cases negative <;> exact ⟨'i', by decide, by decide⟩
  | finite negative rank => cases h

lemma text_finite_ne {negative : Bool} {rank : Fin finiteRanks} {d : Double}
    (h : d.isFinite = false) : (finite negative rank).text ≠ d.text := by
  intro heq
  obtain ⟨c, hc, hletter⟩ := exists_letter h
  exact hletter (mem_text_finite (heq ▸ hc))

/-- The text of a number tells the number. -/
lemma text_injective : Function.Injective text := by
  intro a b h
  cases a with
  | nan =>
    cases b with
    | nan => rfl
    | infinite t => cases t <;> exact absurd h (by decide)
    | finite t q => exact absurd h.symm (text_finite_ne rfl)
  | infinite s =>
    cases b with
    | nan => cases s <;> exact absurd h (by decide)
    | infinite t =>
      cases s <;> cases t
      · rfl
      · exact absurd h (by decide)
      · exact absurd h (by decide)
      · rfl
    | finite t q => exact absurd h.symm (text_finite_ne rfl)
  | finite s r =>
    cases b with
    | nan => exact absurd h (text_finite_ne rfl)
    | infinite t => exact absurd h (text_finite_ne rfl)
    | finite t q =>
      have hchars := congrArg String.toList h
      rw [text_finite, text_finite] at hchars
      have hsign (rank : Nat) (rest : List Char) : plainBody rank ≠ '-' :: rest := by
        intro heq
        have hmem : '-' ∈ plainBody rank := heq ▸ List.mem_cons_self
        exact absurd (mem_plainBody hmem) (by decide)
      cases s <;> cases t
      · rw [Fin.ext (plainBody_injective hchars)]
      · exact absurd hchars (hsign _ _)
      · exact absurd hchars.symm (hsign _ _)
      · rw [Fin.ext (plainBody_injective (List.cons.inj hchars).2)]

end Double

end TypedAttributes
