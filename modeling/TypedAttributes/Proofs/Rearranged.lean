/-
# Counting over rearranged lists

Here two lists correspond to each other by a relation between the first and a rearrangement of the
second, element by element.  As many results are collected from the elements of the one as of the
other, if this is so for related elements.  And there are as many related pairs, of an element and a
later one, although the order of a pair changes with the rearrangement: it does not matter as long
as the relation that is counted is symmetric.
-/
import Mathlib.Data.List.Forall2
import Mathlib.Data.List.Perm.Basic

namespace TypedAttributes

variable {α β : Type} {R : α → α → Prop} {xs arranged ys : List α}

lemma map_eq_map_of_forall₂ (h : List.Forall₂ R xs ys) {f g : α → β}
    (hfg : ∀ x y, R x y → f x = g y) : xs.map f = ys.map g := by
  rw [← List.forall₂_eq_eq_eq, List.forall₂_map_left_iff, List.forall₂_map_right_iff]
  exact h.imp hfg

lemma countP_eq_of_forall₂ (h : List.Forall₂ R xs ys) {p q : α → Bool}
    (hpq : ∀ x y, R x y → p x = q y) : xs.countP p = ys.countP q := by
  have hmap := congrArg (List.countP id) (map_eq_map_of_forall₂ h hpq)
  rwa [List.countP_map, List.countP_map] at hmap

lemma length_flatMap_eq_of_forall₂ (h : List.Forall₂ R xs ys) {f : α → List β}
    (hf : ∀ x y, R x y → (f x).length = (f y).length) :
    (xs.flatMap f).length = (ys.flatMap f).length := by
  induction h with
  | nil => rfl
  | cons hxy _ ih =>
    rw [List.flatMap_cons, List.flatMap_cons, List.length_append, List.length_append,
      hf _ _ hxy, ih]

lemma length_flatMap_congr_arranged (h : List.Forall₂ R xs arranged) (hperm : arranged.Perm ys)
    {f : α → List β} (hf : ∀ x y, R x y → (f x).length = (f y).length) :
    (xs.flatMap f).length = (ys.flatMap f).length :=
  (length_flatMap_eq_of_forall₂ h hf).trans (hperm.flatMap_right f).length_eq

/-! ## Counting pairs -/

/-- The number of pairs of an element and one after it that are related. -/
def pairCount (related : α → α → Bool) : List α → Nat
  | [] => 0
  | x :: later => later.countP (related x) + pairCount related later

lemma pairCount_perm {related : α → α → Bool} (hsymm : ∀ x y, related x y = related y x)
    (h : xs.Perm ys) : pairCount related xs = pairCount related ys := by
  induction h with
  | nil => rfl
  | cons x h ih => rw [pairCount, pairCount, h.countP_eq, ih]
  | swap x y later =>
    -- the pair of the two is counted once on either side, in the one order and in the other
    simp only [pairCount, List.countP_cons, hsymm y x]
    omega
  | trans _ _ ih ih' => exact ih.trans ih'

lemma pairCount_eq_of_forall₂ {related : α → α → Bool} (h : List.Forall₂ R xs ys)
    (hrelated : ∀ {x x'}, R x x' → ∀ {y y'}, R y y' → related x y = related x' y') :
    pairCount related xs = pairCount related ys := by
  induction h with
  | nil => rfl
  | cons hx hlater ih =>
    rw [pairCount, pairCount, ih, countP_eq_of_forall₂ hlater fun y y' hy => hrelated hx hy]

lemma pairCount_congr_arranged {related : α → α → Bool} (h : List.Forall₂ R xs arranged)
    (hperm : arranged.Perm ys) (hsymm : ∀ x y, related x y = related y x)
    (hrelated : ∀ {x x'}, R x x' → ∀ {y y'}, R y y' → related x y = related x' y') :
    pairCount related xs = pairCount related ys :=
  (pairCount_eq_of_forall₂ h hrelated).trans (pairCount_perm hsymm hperm)

lemma pairCount_map {related : β → β → Bool} (f : α → β) (xs : List α) :
    pairCount related (xs.map f) = pairCount (fun x y => related (f x) (f y)) xs := by
  induction xs with
  | nil => rfl
  | cons x later ih =>
    rw [List.map_cons, pairCount, pairCount, ih, List.countP_map]
    rfl

/-- Pairs that are related by the one relation are counted for any other that they are related
by. -/
lemma pairCount_mono {related related' : α → α → Bool}
    (h : ∀ x ∈ xs, ∀ y ∈ xs, related x y = true → related' x y = true) :
    pairCount related xs ≤ pairCount related' xs := by
  induction xs with
  | nil => exact Nat.le_refl 0
  | cons x later ih =>
    rw [pairCount, pairCount]
    refine Nat.add_le_add (List.countP_mono_left fun y hy => h x (by simp) y (by simp [hy])) (ih ?_)
    exact fun x hx y hy => h x (by simp [hx]) y (by simp [hy])

end TypedAttributes
