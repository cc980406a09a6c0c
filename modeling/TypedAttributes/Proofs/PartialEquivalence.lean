/-
# Comparisons that are partial equivalences

A comparison of numbers is symmetric and transitive, but a number that is none equals nothing, so it
is not reflexive.  Comparisons of what is built from numbers inherit this.  As they are defined by
recursion on one of the two things compared, the laws are proved by induction on that one, and for
this they are stated of it alone: `PartialEquivAt same a` says that `same` is symmetric at `a` and
transitive from `a`.

The lemmas below pass this on from the elements of a list to the list, whether two lists are
compared item by item (`List.isEqv`) or by matching (`matched`).  For matching it is more than a law
that is passed on: it is what makes the matching find every pairing there is, as
`matched_iff_paired` says.
-/
import Mathlib.Data.Set.Operations
import TypedAttributes.State
import TypedAttributes.Proofs.Matching
import TypedAttributes.Proofs.Traversal

namespace TypedAttributes

variable {α β γ : Type}

/-- A comparison is symmetric at an element and transitive from it. -/
structure PartialEquivAt (same : α → α → Bool) (a : α) : Prop where
  comm (b : α) : same a b = same b a
  trans {b c : α} (hab : same a b = true) (hbc : same b c = true) : same a c = true

namespace PartialEquivAt

variable {same : α → α → Bool}

lemma symm {a b : α} (h : PartialEquivAt same a) (hab : same a b = true) : same b a = true :=
  (h.comm b).symm.trans hab

/-- What is the same as anything is the same as itself. -/
lemma self_of_same {a b : α} (h : PartialEquivAt same a) (hab : same a b = true) :
    same a a = true :=
  h.trans hab (h.symm hab)

/-! ## Parts of what is compared -/

lemma of_beq [BEq α] [LawfulBEq α] (a : α) : PartialEquivAt (fun x y => x == y) a where
  comm b := Bool.beq_comm
  trans {b c} hab hbc := by
    rw [beq_iff_eq] at hab hbc ⊢
    exact hab.trans hbc

lemma comap {f : β → α} {b : β} (h : PartialEquivAt same (f b)) :
    PartialEquivAt (fun x y => same (f x) (f y)) b where
  comm c := h.comm (f c)
  trans hbc hcd := h.trans hbc hcd

lemma and {other : α → α → Bool} {a : α} (h : PartialEquivAt same a) (h' : PartialEquivAt other a) :
    PartialEquivAt (fun x y => same x y && other x y) a where
  comm b := by rw [h.comm b, h'.comm b]
  trans {b c} hab hbc := by
    rw [Bool.and_eq_true] at hab hbc ⊢
    exact ⟨h.trans hab.1 hbc.1, h'.trans hab.2 hbc.2⟩

/-- What is built in one way, if nothing else is the same as it and what is built so is compared by
what it is built of. -/
lemma of_built {parts : γ → γ → Bool} {build : γ → α} {a : γ} (h : PartialEquivAt parts a)
    (hbuild : ∀ x y, same (build x) (build y) = parts x y)
    (hrange : ∀ x y, same (build x) y = true ∨ same y (build x) = true → y ∈ Set.range build) :
    PartialEquivAt same (build a) where
  comm y := by
    rw [Bool.eq_iff_iff]
    constructor
    · intro hay
      obtain ⟨b, rfl⟩ := hrange a y (Or.inl hay)
      rwa [hbuild, ← h.comm, ← hbuild]
    · intro hya
      obtain ⟨b, rfl⟩ := hrange a y (Or.inr hya)
      rwa [hbuild, h.comm, ← hbuild]
  trans {y z} hay hyz := by
    obtain ⟨b, rfl⟩ := hrange a y (Or.inl hay)
    obtain ⟨c, rfl⟩ := hrange b z (Or.inl hyz)
    rw [hbuild] at hay hyz ⊢
    exact h.trans hay hyz

lemma state {state : State α}
    (h : ∀ content, state = .known content → PartialEquivAt same content) :
    PartialEquivAt (State.equal same) state where
  comm other := by
    rcases state with _ | _ | a <;> rcases other with _ | _ | b
    case known.known => exact (h a rfl).comm b
    all_goals rfl
  trans {s t} hs ht := by
    rcases state with _ | _ | a <;> rcases s with _ | _ | b <;> rcases t with _ | _ | c
    case known.known.known => exact (h a rfl).trans hs ht
    all_goals simp_all [State.equal]

/-- Entries are the same when their keys are and their values are the same. -/
lemma entry {entry : String × α} (h : PartialEquivAt same entry.2) :
    PartialEquivAt (fun x y : String × α => x.1 == y.1 && same x.2 y.2) entry :=
  (of_beq entry.1).comap (f := Prod.fst) |>.and (h.comap (f := Prod.snd))

end PartialEquivAt

/-! ## Lists, item by item -/

section Lists

variable {same : α → α → Bool} {xs ys zs : List α}

lemma isEqv_iff_forall₂ :
    xs.isEqv ys same = true ↔ List.Forall₂ (fun x y => same x y = true) xs ys := by
  induction xs generalizing ys with
  | nil => cases ys <;> simp [List.isEqv]
  | cons x xs ih => cases ys <;> simp [List.isEqv, ih]

lemma isEqv_self_iff : xs.isEqv xs same = true ↔ ∀ x ∈ xs, same x x = true := by
  rw [isEqv_iff_forall₂, List.forall₂_same]

lemma PartialEquivAt.isEqv (h : ∀ x ∈ xs, PartialEquivAt same x) :
    PartialEquivAt (fun xs ys => xs.isEqv ys same) xs where
  comm ys := by
    induction xs generalizing ys with
    | nil => cases ys <;> rfl
    | cons x xs ih =>
      cases ys with
      | nil => rfl
      | cons y ys =>
        rw [List.isEqv, List.isEqv, (h x (by simp)).comm y, ih (fun z hz => h z (by simp [hz])) ys]
  trans {ys zs} hxy hyz := by
    induction xs generalizing ys zs with
    | nil =>
      cases ys with
      | nil => exact hyz
      | cons y ys => cases hxy
    | cons x xs ih =>
      rcases ys with _ | ⟨y, ys⟩
      · cases hxy
      rcases zs with _ | ⟨z, zs⟩
      · cases hyz
      rw [List.isEqv, Bool.and_eq_true] at hxy hyz ⊢
      exact ⟨(h x (by simp)).trans hxy.1 hyz.1, ih (fun w hw => h w (by simp [hw])) hxy.2 hyz.2⟩

/-! ## Lists, by matching -/

/-- The matching finds a pairing whenever there is one, if the comparison is a partial equivalence
at the elements of the first list. -/
lemma matched_iff_paired (h : ∀ x ∈ xs, PartialEquivAt same x) :
    matched same xs ys = true ↔ Paired same xs ys := by
  rw [paired_iff_exists_perm]
  refine ⟨exists_perm_of_matched, fun ⟨zs, hperm, hzs⟩ => matched_of_perm ?_ hperm hzs⟩
  intro a ha b hb y _ z _ hay haz hby
  have hba : same b a = true := (h b hb).trans hby ((h a ha).symm hay)
  exact (h b hb).trans hba haz

/-- The same if the comparison is a partial equivalence at the elements of the second list. -/
lemma matched_iff_paired_of_right (h : ∀ y ∈ ys, PartialEquivAt same y) :
    matched same xs ys = true ↔ Paired same xs ys := by
  rw [paired_iff_exists_perm]
  refine ⟨exists_perm_of_matched, fun ⟨zs, hperm, hzs⟩ => matched_of_perm ?_ hperm hzs⟩
  intro a _ b _ y hy z hz hay haz hby
  have hya : same y a = true := ((h y hy).comm a).trans hay
  have hza : same z a = true := ((h z hz).comm a).trans haz
  have hyb : same y b = true := ((h y hy).comm b).trans hby
  have hzy : same z y = true := (h z hz).trans hza ((h y hy).symm hya)
  exact (h z hz).symm ((h z hz).trans hzy hyb)

/-- A comparison that accepts no less matches no less, if it is a partial equivalence. -/
lemma matched_mono {other : α → α → Bool} (h : ∀ x ∈ xs, PartialEquivAt other x)
    (himp : ∀ x ∈ xs, ∀ y ∈ ys, same x y = true → other x y = true)
    (hmatched : matched same xs ys = true) : matched other xs ys = true := by
  obtain ⟨zs, hperm, hzs⟩ := exists_perm_of_matched hmatched
  rw [matched_iff_paired h, paired_iff_exists_perm]
  exact ⟨zs, hperm, forall₂_imp_of_mem hzs fun x hx z hz => himp x hx z (hperm.subset hz)⟩

/-- Pairing is symmetric if the comparison is. -/
lemma paired_comm (h : ∀ x ∈ xs, PartialEquivAt same x) :
    Paired same xs ys ↔ Paired same ys xs := by
  constructor
  · rintro ⟨hlength, f, hf⟩
    refine ⟨hlength.symm, f.symm, fun i => ?_⟩
    have hi := (h _ (List.getElem_mem (f.symm i).isLt)).symm (hf (f.symm i))
    simpa using hi
  · rintro ⟨hlength, f, hf⟩
    refine ⟨hlength.symm, f.symm, fun i => ?_⟩
    have hi := hf (f.symm i)
    simp only [Equiv.apply_symm_apply] at hi
    exact ((h _ (List.getElem_mem i.isLt)).comm _).trans hi

/-- Pairing does not depend on the order of the first list. -/
lemma Paired.of_perm_left {ws : List α} (hperm : ws.Perm xs) (h : Paired same xs ys) :
    Paired same ws ys := by
  obtain ⟨g, hg⟩ := exists_equiv_of_perm hperm
  obtain ⟨hlength, f, hf⟩ := h
  refine ⟨hperm.length_eq.trans hlength, g.trans f, fun i => ?_⟩
  rw [← hg i]
  exact hf (g i)

lemma PartialEquivAt.matched (h : ∀ x ∈ xs, PartialEquivAt same x) :
    PartialEquivAt (matched same) xs where
  comm ys := by
    rw [Bool.eq_iff_iff, matched_iff_paired h, matched_iff_paired_of_right h, paired_comm h]
  trans {ys zs} hxy hyz := by
    obtain ⟨hlength, f, hf⟩ := (matched_iff_paired h).1 hxy
    obtain ⟨hlength', g, hg⟩ := paired_iff_exists_perm.2 (exists_perm_of_matched hyz)
    refine (matched_iff_paired h).2 ⟨hlength.trans hlength', f.trans g, fun i => ?_⟩
    exact (h _ (List.getElem_mem i.isLt)).trans (hf i) (hg (f i))

/-- Matching does not depend on the order of the first list. -/
lemma matched_congr_perm {ws : List α} (h : ∀ x ∈ xs, PartialEquivAt same x) (hperm : ws.Perm xs) :
    matched same ws ys = matched same xs ys := by
  have hws : ∀ w ∈ ws, PartialEquivAt same w := fun w hw => h w (hperm.subset hw)
  rw [Bool.eq_iff_iff, matched_iff_paired h, matched_iff_paired hws]
  exact ⟨.of_perm_left hperm.symm, .of_perm_left hperm⟩

/-- A list is matched with itself when each element is the same as itself. -/
lemma matched_self_iff (h : ∀ x ∈ xs, PartialEquivAt same x) :
    matched same xs xs = true ↔ ∀ x ∈ xs, same x x = true := by
  constructor
  · intro hmatched x hx
    obtain ⟨zs, -, hzs⟩ := exists_perm_of_matched hmatched
    obtain ⟨z, -, hxz⟩ := exists_of_mem_right hzs.flip hx
    exact (h x hx).self_of_same hxz
  · intro hself
    exact matched_of_forall₂ (List.forall₂_same.2 hself)

end Lists

end TypedAttributes
