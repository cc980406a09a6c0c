/-
# What the matching of members decides

`matched` gives each element of one list the first free element of another that is the same, and
never takes a choice back.  Whenever it succeeds, the second list can be rearranged so that the two
agree element by element.  The converse needs a property of the comparison: elements that are the
same as a common one are the same as all the same ones.  Then it does not matter which of the
candidates an element is given, because the candidate that it should have had can be exchanged for
the one it got.

Rearrangements are what proofs by induction work with.  What they amount to is `Paired`, a
one-to-one assignment of positions (`paired_iff_exists_perm`).
-/
import Mathlib.Data.List.FinRange
import Mathlib.Data.List.Perm.Basic
import Mathlib.Logic.Equiv.Fin.Basic
import TypedAttributes.Matching

namespace TypedAttributes

variable {α β : Type} {same : α → β → Bool}

/-- Lists that agree element by element are matched. -/
lemma matched_of_forall₂ {xs : List α} {ys : List β}
    (h : List.Forall₂ (fun x y => same x y = true) xs ys) : matched same xs ys = true := by
  induction h with
  | nil => rfl
  | cons hxy _ ih => simp [matched, takeFirst?, hxy, ih]

/-- Lists that are matched agree after a rearrangement of the second. -/
lemma exists_perm_of_matched {xs : List α} {ys : List β} (h : matched same xs ys = true) :
    ∃ zs, zs.Perm ys ∧ List.Forall₂ (fun x y => same x y = true) xs zs := by
  induction xs generalizing ys with
  | nil =>
    obtain rfl : ys = [] := by simpa [matched] using h
    exact ⟨[], .refl _, .nil⟩
  | cons x xs ih =>
    obtain ⟨rest, hrest, hmatched⟩ := (Option.any_eq_true _ _).1 h
    obtain ⟨before, y, after, hxy, rfl, rfl⟩ := takeFirst?_eq_some hrest
    obtain ⟨zs, hperm, hzs⟩ := ih hmatched
    exact ⟨y :: zs, (hperm.cons y).trans List.perm_middle.symm, .cons hxy hzs⟩

lemma takeFirst?_map {γ : Type} {accepts : γ → Bool} {f : α → γ} (ys : List α) :
    takeFirst? accepts (ys.map f) = (takeFirst? (fun y => accepts (f y)) ys).map (List.map f) := by
  induction ys with
  | nil => rfl
  | cons y ys ih =>
    rw [List.map_cons, takeFirst?, takeFirst?, ih]
    split
    · rfl
    · rw [Option.map_map, Option.map_map]
      rfl

/-- Images are matched by comparing what they are images of. -/
lemma matched_map {γ δ : Type} {same : γ → δ → Bool} {f : α → γ} {g : β → δ} (xs : List α)
    (ys : List β) :
    matched same (xs.map f) (ys.map g) = matched (fun x y => same (f x) (g y)) xs ys := by
  induction xs generalizing ys with
  | nil => simp [matched]
  | cons x xs ih =>
    rw [List.map_cons, matched, matched, takeFirst?_map, Option.any_map]
    simp only [ih]

/-- One element of the second list may be exchanged for another that has the same partners. -/
lemma forall₂_exchange {R : α → β → Prop} {xs : List α} {before after : List β} {y z : β}
    (h : List.Forall₂ R xs (before ++ z :: after)) (hyz : ∀ x ∈ xs, R x z → R x y) :
    List.Forall₂ R xs (before ++ y :: after) := by
  induction before generalizing xs with
  | nil =>
    rcases h with _ | ⟨hxz, hrest⟩
    exact .cons (hyz _ (by simp) hxz) hrest
  | cons b before ih =>
    rcases h with _ | ⟨hxb, hrest⟩
    exact .cons hxb (ih hrest fun x hx => hyz x (by simp [hx]))

/-- Lists that agree after a rearrangement of the second are matched, if elements that are the same
as a common one are the same as all the same ones. -/
lemma matched_of_perm {xs : List α} {ys zs : List β}
    (hsame : ∀ a ∈ xs, ∀ b ∈ xs, ∀ y ∈ ys, ∀ z ∈ ys,
      same a y = true → same a z = true → same b y = true → same b z = true)
    (hperm : zs.Perm ys) (h : List.Forall₂ (fun x y => same x y = true) xs zs) :
    matched same xs ys = true := by
  induction xs generalizing ys zs with
  | nil =>
    obtain rfl := List.forall₂_nil_left_iff.1 h
    simp [hperm.symm.eq_nil, matched]
  | cons x xs ih =>
    rcases h with _ | ⟨hxy, hrest⟩
    rename_i y zs
    have hy : y ∈ ys := hperm.subset (by simp)
    rcases hfirst : takeFirst? (same x) ys with _ | rest
    · have hnone := takeFirst?_eq_none_iff.1 hfirst y hy
      simp [hxy] at hnone
    · obtain ⟨before, z, after, hxz, rfl, rfl⟩ := takeFirst?_eq_some hfirst
      have htail : ∃ ws, ws.Perm (before ++ after) ∧
          List.Forall₂ (fun x y => same x y = true) xs ws := by
        have hcons : (y :: zs).Perm (z :: (before ++ after)) := hperm.trans List.perm_middle
        rcases List.mem_cons.1 (hcons.symm.subset (by simp) : z ∈ y :: zs) with rfl | hz
        · exact ⟨zs, hcons.cons_inv, hrest⟩
        · -- `z` was meant for another element, which gets `y` instead
          obtain ⟨left, right, rfl⟩ := List.append_of_mem hz
          refine ⟨left ++ y :: right, ?_, forall₂_exchange hrest fun b hb hbz => ?_⟩
          · have hswap : (z :: y :: (left ++ right)).Perm (z :: (before ++ after)) :=
              (List.Perm.swap _ _ _).trans ((List.perm_middle.symm.cons y).trans hcons)
            exact List.perm_middle.trans hswap.cons_inv
          · exact hsame x (by simp) b (by simp [hb]) z (by simp) y hy hxz hxy hbz
      obtain ⟨ws, hws, hagree⟩ := htail
      have hsub : ∀ w ∈ before ++ after, w ∈ before ++ z :: after := by
        intro w hw
        rcases List.mem_append.1 hw with hw | hw <;> simp [hw]
      have hmatched : matched same xs (before ++ after) = true := by
        refine ih (fun a ha b hb v hv w hw => ?_) hws hagree
        exact hsame a (by simp [ha]) b (by simp [hb]) v (hsub v hv) w (hsub w hw)
      simp [matched, hfirst, hmatched]

/-! ## Pairing positions -/

/-- Two lists are equally long, and their positions can be paired one to one so that the elements at
paired positions are the same. -/
def Paired (same : α → β → Bool) (xs : List α) (ys : List β) : Prop :=
  xs.length = ys.length ∧ ∃ f : Fin xs.length ≃ Fin ys.length, ∀ i, same xs[i] ys[f i] = true

/-- A rearrangement moves positions one to one. -/
lemma exists_equiv_of_perm {ys zs : List β} (h : zs.Perm ys) :
    ∃ f : Fin zs.length ≃ Fin ys.length, ∀ i, ys[f i] = zs[i] := by
  classical
  exact ⟨⟨h.idxBij, h.symm.idxBij, h.idxBij_symm_leftInverse_idxBij,
    h.idxBij_symm_rightInverse_idxBij⟩, h.getElem_idxBij_eq_getElem⟩

/-- Moving positions one to one is a rearrangement. -/
lemma ofFn_perm_of_equiv {n : Nat} {ys : List β} (f : Fin n ≃ Fin ys.length) :
    (List.ofFn fun i => ys[f i]).Perm ys := by
  obtain rfl : n = ys.length := Fin.equiv_iff_eq.1 ⟨f⟩
  have hperm := Equiv.Perm.ofFn_comp_perm f ys.get
  rwa [List.ofFn_get] at hperm

/-- The positions of two lists can be paired exactly when the lists agree after a rearrangement. -/
lemma paired_iff_exists_perm {xs : List α} {ys : List β} :
    Paired same xs ys ↔ ∃ zs, zs.Perm ys ∧ List.Forall₂ (fun x y => same x y = true) xs zs := by
  constructor
  · rintro ⟨-, f, hf⟩
    refine ⟨List.ofFn fun i => ys[f i], ofFn_perm_of_equiv f, ?_⟩
    rw [List.forall₂_iff_get]
    exact ⟨by simp, fun i hi _ => by simpa using hf ⟨i, hi⟩⟩
  · rintro ⟨zs, hperm, hzs⟩
    obtain ⟨f, hf⟩ := exists_equiv_of_perm hperm
    have hlength : xs.length = zs.length := hzs.length_eq
    refine ⟨hlength.trans hperm.length_eq, (finCongr hlength).trans f, fun i => ?_⟩
    have hi := hzs.get i.isLt (hlength ▸ i.isLt)
    simpa [hf] using hi

end TypedAttributes
