/-
# Computations that may fail

A computation built from others succeeds exactly when its parts do, and its result is built from
theirs.  For the traversal of a list this is a relation between two lists, item by item: the `i`-th
result is the result at the `i`-th item.  The lemmas below say so for the traversals that
conversion, checking and encoding use.
-/
import Mathlib.Data.List.Forall2
import TypedAttributes.Keyed

namespace TypedAttributes

variable {ε α β γ : Type}

@[simp] lemma bind_eq_ok_iff {x : Except ε α} {f : α → Except ε β} {b : β} :
    (x >>= f) = .ok b ↔ ∃ a, x = .ok a ∧ f a = .ok b := by
  cases x with
  | error e => simp [bind, Except.bind]
  | ok a => simp [bind, Except.bind]

@[simp] lemma map_eq_ok_iff {x : Except ε α} {f : α → β} {b : β} :
    x.map f = .ok b ↔ ∃ a, x = .ok a ∧ f a = b := by
  cases x with
  | error e => simp [Except.map]
  | ok a => simp [Except.map]

@[simp] lemma mapError_eq_ok_iff {δ : Type} {x : Except ε α} {f : ε → δ} {a : α} :
    x.mapError f = .ok a ↔ x = .ok a := by
  cases x with
  | error e => simp [Except.mapError]
  | ok a' => simp [Except.mapError]

@[simp] lemma pure_eq_ok_iff {a b : α} : (pure a : Except ε α) = .ok b ↔ a = b := by
  simp [pure, Except.pure]

/-- When success is a condition and the result determined, so it is after something is made of the
result. -/
lemma bind_pure_eq_ok_iff {x : Except ε α} {P : Prop} {a : α} {make : α → β}
    (h : ∀ b, x = .ok b ↔ P ∧ b = a) {c : β} :
    (x >>= fun b => pure (make b)) = .ok c ↔ P ∧ c = make a := by
  rw [bind_eq_ok_iff]
  constructor
  · rintro ⟨b, hb, hc⟩
    obtain ⟨hP, rfl⟩ := (h b).1 hb
    exact ⟨hP, (pure_eq_ok_iff.1 hc).symm⟩
  · rintro ⟨hP, rfl⟩
    exact ⟨a, (h a).2 ⟨hP, rfl⟩, rfl⟩

lemma bind_eq_error_iff {x : Except ε α} {f : α → Except ε β} {e : ε} :
    (x >>= f) = .error e ↔ x = .error e ∨ ∃ a, x = .ok a ∧ f a = .error e := by
  cases x with
  | error e' => simp [bind, Except.bind]
  | ok a => simp [bind, Except.bind]

lemma bind_pure_eq_error_iff {x : Except ε α} {make : α → β} {e : ε} :
    (x >>= fun a => pure (make a)) = .error e ↔ x = .error e := by
  rw [bind_eq_error_iff]
  simp [pure, Except.pure]

lemma map_eq_error_iff {x : Except ε α} {f : α → β} {e : ε} :
    x.map f = .error e ↔ x = .error e := by
  cases x <;> simp [Except.map]

/-- A computation succeeds when it does not fail. -/
lemma exists_ok_iff {x : Except ε α} : (∃ a, x = .ok a) ↔ ∀ e, x ≠ .error e := by
  cases x <;> simp

/-! ## Lists -/

lemma forM_eq_ok_iff {f : α → Except ε Unit} {xs : List α} :
    xs.forM f = .ok () ↔ ∀ x ∈ xs, f x = .ok () := by
  rw [List.forM_eq_forM]
  induction xs with
  | nil => simp
  | cons x xs ih =>
    rw [List.forM_cons, bind_eq_ok_iff, List.forall_mem_cons, ← ih]
    constructor
    · rintro ⟨⟨⟩, hx, hxs⟩
      exact ⟨hx, hxs⟩
    · rintro ⟨hx, hxs⟩
      exact ⟨(), hx, hxs⟩

lemma mapM_eq_ok_iff {f : α → Except ε β} {xs : List α} {ys : List β} :
    xs.mapM f = .ok ys ↔ List.Forall₂ (fun x y => f x = .ok y) xs ys := by
  induction xs generalizing ys with
  | nil =>
    rw [List.mapM_nil, pure_eq_ok_iff, List.forall₂_nil_left_iff]
    exact eq_comm
  | cons x xs ih =>
    rw [List.mapM_cons, bind_eq_ok_iff]
    constructor
    · rintro ⟨y, hy, h⟩
      obtain ⟨zs, hzs, hys⟩ := bind_eq_ok_iff.1 h
      obtain rfl := pure_eq_ok_iff.1 hys
      exact .cons hy (ih.1 hzs)
    · rintro (_ | ⟨hy, hys⟩)
      exact ⟨_, hy, bind_eq_ok_iff.2 ⟨_, ih.2 hys, rfl⟩⟩

/-- A traversal fails at an item as soon as it has succeeded at all items before. -/
lemma mapM_eq_error_iff {f : α → Except ε β} {xs : List α} {e : ε} :
    xs.mapM f = .error e ↔ ∃ before x after, xs = before ++ x :: after ∧
      (∀ y ∈ before, ∃ b, f y = .ok b) ∧ f x = .error e := by
  induction xs with
  | nil => simp [pure, Except.pure]
  | cons x xs ih =>
    rw [List.mapM_cons, bind_eq_error_iff]
    constructor
    · rintro (hx | ⟨b, hb, hrest⟩)
      · exact ⟨[], x, xs, rfl, by simp, hx⟩
      · obtain hxs | ⟨_, _, hpure⟩ := bind_eq_error_iff.1 hrest
        · obtain ⟨before, y, after, rfl, hbefore, hy⟩ := ih.1 hxs
          exact ⟨x :: before, y, after, rfl, List.forall_mem_cons.2 ⟨⟨b, hb⟩, hbefore⟩, hy⟩
        · cases hpure
    · rintro ⟨before, y, after, hsplit, hbefore, hy⟩
      cases before with
      | nil =>
        cases hsplit
        exact Or.inl hy
      | cons z before =>
        cases hsplit
        obtain ⟨⟨b, hb⟩, hbefore⟩ := List.forall_mem_cons.1 hbefore
        exact Or.inr ⟨b, hb,
          bind_eq_error_iff.2 (Or.inl (ih.2 ⟨before, y, after, rfl, hbefore, hy⟩))⟩

/-- A run over a list fails at an item as soon as it has got over all items before. -/
lemma forM_eq_error_iff {f : α → Except ε Unit} {xs : List α} {e : ε} :
    xs.forM f = .error e ↔ ∃ before x after, xs = before ++ x :: after ∧
      (∀ y ∈ before, f y = .ok ()) ∧ f x = .error e := by
  have hmapM : xs.forM f = xs.mapM f >>= fun _ => pure () := by
    rw [List.forM_eq_forM]
    induction xs with
    | nil => rfl
    | cons x xs ih => simp only [List.forM_cons, ih, List.mapM_cons, bind_assoc, pure_bind]
  have hunit (y : α) : (∃ b, f y = .ok b) ↔ f y = .ok () := ⟨fun ⟨_, h⟩ => h, fun h => ⟨(), h⟩⟩
  rw [hmapM, bind_eq_error_iff, mapM_eq_error_iff]
  simp [hunit, pure, Except.pure]

/-- When success at an item is a condition on it and the result a function of it, so for a list. -/
lemma mapM_eq_ok_iff_map {f : α → Except ε β} {P : α → Prop} {g : α → β}
    (h : ∀ x y, f x = .ok y ↔ P x ∧ y = g x) {xs : List α} {ys : List β} :
    xs.mapM f = .ok ys ↔ (∀ x ∈ xs, P x) ∧ ys = xs.map g := by
  rw [mapM_eq_ok_iff]
  constructor
  · intro hall
    induction hall with
    | nil => simp
    | cons hxy _ ih =>
      obtain ⟨hx, rfl⟩ := (h _ _).1 hxy
      exact ⟨List.forall_mem_cons.2 ⟨hx, ih.1⟩, by rw [List.map_cons, ih.2]⟩
  · rintro ⟨hP, rfl⟩
    rw [List.forall₂_map_right_iff, List.forall₂_same]
    exact fun x hx => (h _ _).2 ⟨hP x hx, rfl⟩

/-- What each item has something related to, the list has a list related to. -/
lemma exists_forall₂ {R : α → β → Prop} {xs : List α} (h : ∀ x ∈ xs, ∃ y, R x y) :
    ∃ ys, List.Forall₂ R xs ys := by
  induction xs with
  | nil => exact ⟨[], .nil⟩
  | cons x xs ih =>
    obtain ⟨y, hy⟩ := h x (by simp)
    obtain ⟨ys, hys⟩ := ih fun x hx => h x (by simp [hx])
    exact ⟨y :: ys, .cons hy hys⟩

/-- A traversal succeeds when the computation succeeds at every item. -/
lemma exists_mapM_ok_iff {f : α → Except ε β} {xs : List α} :
    (∃ ys, xs.mapM f = .ok ys) ↔ ∀ x ∈ xs, ∃ y, f x = .ok y := by
  simp only [mapM_eq_ok_iff]
  refine ⟨?_, exists_forall₂⟩
  rintro ⟨ys, hys⟩ x hx
  induction hys with
  | nil => cases hx
  | cons hxy _ ih =>
    rcases List.mem_cons.1 hx with rfl | hx
    · exact ⟨_, hxy⟩
    · exact ih hx

/-- If every item comes back from its image, the list comes back from its traversal. -/
lemma mapM_round_trip {δ : Type} {f : α → Except ε β} {g : β → Except δ α} {xs : List α}
    (h : ∀ x ∈ xs, ∃ y, f x = .ok y ∧ g y = .ok x) :
    ∃ ys, xs.mapM f = .ok ys ∧ ys.mapM g = .ok xs := by
  obtain ⟨ys, hys⟩ := exists_forall₂ h
  refine ⟨ys, mapM_eq_ok_iff.2 (hys.imp fun _ _ hxy => hxy.1), mapM_eq_ok_iff.2 ?_⟩
  exact List.Forall₂.flip (hys.imp fun _ _ hxy => hxy.2)

/-- What is on the right is related to something on the left. -/
lemma exists_of_mem_right {R : α → β → Prop} {xs : List α} {ys : List β} (h : List.Forall₂ R xs ys)
    {y : β} (hy : y ∈ ys) : ∃ x ∈ xs, R x y := by
  induction h with
  | nil => simp at hy
  | cons hxy _ ih =>
    rcases List.mem_cons.1 hy with rfl | hy
    · exact ⟨_, by simp, hxy⟩
    · obtain ⟨x, hx, hR⟩ := ih hy
      exact ⟨x, by simp [hx], hR⟩

/-- Lists related item by item are related by whatever follows for the items in them. -/
lemma forall₂_imp_of_mem {R S : α → β → Prop} {xs : List α} {ys : List β} (h : List.Forall₂ R xs ys)
    (himp : ∀ x ∈ xs, ∀ y ∈ ys, R x y → S x y) : List.Forall₂ S xs ys := by
  induction h with
  | nil => exact .nil
  | cons hxy _ ih =>
    exact .cons (himp _ (by simp) _ (by simp) hxy)
      (ih fun x hx y hy => himp x (by simp [hx]) y (by simp [hy]))

/-- Of lists related item by item, the items on both sides have a property or those on neither, if
it is so for related items. -/
lemma forall_mem_congr {R : α → β → Prop} {P : α → Prop} {Q : β → Prop} {xs : List α} {ys : List β}
    (h : List.Forall₂ R xs ys) (hsame : ∀ x ∈ xs, ∀ y, R x y → (P x ↔ Q y)) :
    (∀ x ∈ xs, P x) ↔ ∀ y ∈ ys, Q y := by
  induction h with
  | nil => simp
  | cons hxy _ ih =>
    rw [List.forall_mem_cons, List.forall_mem_cons, hsame _ (by simp) _ hxy,
      ih fun x hx => hsame x (by simp [hx])]

/-! ## Entries -/

namespace Keyed

/-- The entries with a function applied to each value. -/
def mapValues (f : α → β) (entries : List (String × α)) : List (String × β) :=
  entries.map fun entry => (entry.1, f entry.2)

@[simp] lemma keys_mapValues (f : α → β) (entries : List (String × α)) :
    keys (mapValues f entries) = keys entries := by
  simp [keys, mapValues]

lemma mapValues_eq_self {f : α → α} {entries : List (String × α)}
    (h : ∀ value ∈ entries.map Prod.snd, f value = value) : mapValues f entries = entries := by
  have hentry : ∀ entry ∈ entries, (entry.1, f entry.2) = entry := by
    intro entry hentry
    rw [h entry.2 (List.mem_map_of_mem hentry)]
  exact (List.map_congr_left hentry).trans (List.map_id' entries)

lemma traverse_eq_ok_iff {f : α → Except ε β} {xs : List (String × α)} {ys : List (String × β)} :
    traverse f xs = .ok ys ↔
      List.Forall₂ (fun x y => x.1 = y.1 ∧ f x.2 = .ok y.2) xs ys := by
  induction xs generalizing ys with
  | nil => simp [traverse, eq_comm]
  | cons x xs ih =>
    rw [traverse, bind_eq_ok_iff]
    constructor
    · rintro ⟨y, hy, h⟩
      obtain ⟨zs, hzs, hys⟩ := bind_eq_ok_iff.1 h
      obtain rfl := pure_eq_ok_iff.1 hys
      exact .cons ⟨rfl, hy⟩ (ih.1 hzs)
    · rintro (_ | ⟨⟨hkey, hy⟩, hys⟩)
      refine ⟨_, hy, bind_eq_ok_iff.2 ⟨_, ih.2 hys, pure_eq_ok_iff.2 ?_⟩⟩
      rw [hkey]

/-- A traversal of entries fails as that of their values does. -/
lemma traverse_eq_error_iff {f : α → Except ε β} {entries : List (String × α)} {e : ε} :
    traverse f entries = .error e ↔ (entries.map Prod.snd).mapM f = .error e := by
  induction entries with
  | nil => simp [traverse, pure, Except.pure]
  | cons entry rest ih =>
    rw [traverse, List.map_cons, List.mapM_cons, bind_eq_error_iff, bind_eq_error_iff]
    refine or_congr_right (exists_congr fun b => and_congr_right fun _ => ?_)
    rw [bind_eq_error_iff, bind_eq_error_iff, ih]
    simp [pure, Except.pure]

lemma traverse_eq_ok_iff_mapValues {f : α → Except ε β} {P : α → Prop} {g : α → β}
    (h : ∀ x y, f x = .ok y ↔ P x ∧ y = g x) {xs : List (String × α)} {ys : List (String × β)} :
    traverse f xs = .ok ys ↔ (∀ x ∈ xs.map Prod.snd, P x) ∧ ys = mapValues g xs := by
  rw [traverse_eq_ok_iff]
  constructor
  · intro hall
    induction hall with
    | nil => simp [mapValues]
    | @cons x y xs ys hxy _ ih =>
      obtain ⟨hkey, hvalue⟩ := hxy
      obtain ⟨hx, hy⟩ := (h _ _).1 hvalue
      refine ⟨List.forall_mem_cons.2 ⟨hx, ih.1⟩, ?_⟩
      rw [ih.2, mapValues, mapValues, List.map_cons, hkey, ← hy]
  · rintro ⟨hP, rfl⟩
    rw [mapValues, List.forall₂_map_right_iff, List.forall₂_same]
    exact fun x hx => ⟨rfl, (h _ _).2 ⟨hP x.2 (List.mem_map_of_mem hx), rfl⟩⟩

/-- If every value comes back from its image, the entries come back from their traversal. -/
lemma traverse_round_trip {δ : Type} {f : α → Except ε β} {g : β → Except δ α}
    {entries : List (String × α)}
    (h : ∀ value ∈ entries.map Prod.snd, ∃ y, f value = .ok y ∧ g y = .ok value) :
    ∃ ys, traverse f entries = .ok ys ∧ traverse g ys = .ok entries := by
  have hentries : ∀ entry ∈ entries, ∃ y : String × β, entry.1 = y.1 ∧
      f entry.2 = .ok y.2 ∧ g y.2 = .ok entry.2 := by
    intro entry hentry
    obtain ⟨y, hy, hback⟩ := h entry.2 (List.mem_map_of_mem hentry)
    exact ⟨(entry.1, y), rfl, hy, hback⟩
  obtain ⟨ys, hys⟩ := exists_forall₂ hentries
  refine ⟨ys, traverse_eq_ok_iff.2 (hys.imp fun _ _ hxy => ⟨hxy.1, hxy.2.1⟩),
    traverse_eq_ok_iff.2 ?_⟩
  exact List.Forall₂.flip (hys.imp fun _ _ hxy => ⟨hxy.1.symm, hxy.2.2⟩)

end Keyed

end TypedAttributes
