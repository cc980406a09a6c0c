/-
# Values with the members of sets in another order

The members of a set have no order, but a wire value lists them in one.  Two values are reorderings
of each other if they differ in this only, in whatever sets there are in them, at whatever depth;
items of lists and entries of maps stay in place.

Equality does not tell such values apart.  This cannot be had from its laws, as a value with `nan`
in it does not even equal itself, so it is shown for the comparison with each third value.
-/
import TypedAttributes.Proofs.KeyOrder
import TypedAttributes.Proofs.Wire.Equality
import TypedAttributes.Wire.Decode

namespace TypedAttributes

/-- Lists are compared to a third one alike, if their elements are. -/
lemma isEqv_eq_of_forall₂ {α : Type} {same : α → α → Bool} {xs xs' : List α}
    (h : List.Forall₂ (fun x x' => ∀ y, same x y = same x' y) xs xs') (ys : List α) :
    xs.isEqv ys same = xs'.isEqv ys same := by
  induction h generalizing ys with
  | nil => rfl
  | cons hx _ ih =>
    cases ys with
    | nil => rfl
    | cons y ys => rw [List.isEqv, List.isEqv, hx y, ih ys]

/-- Lists are matched with a third one alike, if their elements are the same as the same ones. -/
lemma matched_eq_of_forall₂ {α : Type} {same : α → α → Bool} {xs xs' : List α}
    (h : List.Forall₂ (fun x x' => ∀ y, same x y = same x' y) xs xs') (ys : List α) :
    matched same xs ys = matched same xs' ys := by
  induction h generalizing ys with
  | nil => rfl
  | cons hx _ ih => rw [matched, matched, funext hx, funext ih]

namespace Wire.Value

/-- Whether two values differ at most in the order in which the members of sets are listed. -/
inductive Reordered : Value → Value → Prop
  /-- Nothing is reordered in what is no known collection. -/
  | leaf (value : Value) (h : value.isCollection = false) : Reordered value value
  | list (ty : Ty) {items items' : List Value} (h : List.Forall₂ Reordered items items') :
      Reordered (.typed ty (.known (.list items))) (.typed ty (.known (.list items')))
  | map (ty : Ty) {entries entries' : List (String × Value)}
      (hkeys : Keyed.keys entries = Keyed.keys entries')
      (h : List.Forall₂ Reordered (entries.map Prod.snd) (entries'.map Prod.snd)) :
      Reordered (.typed ty (.known (.map entries))) (.typed ty (.known (.map entries')))
  /-- The members of a set may be listed in any order, and may have been reordered in themselves. -/
  | set (ty : Ty) {members arranged members' : List Value}
      (h : List.Forall₂ Reordered members arranged)
      (hperm : arranged.Perm members') :
      Reordered (.typed ty (.known (.set members))) (.typed ty (.known (.set members')))

namespace Reordered

/-- A value is a reordering of itself. -/
lemma refl (value : Value) : Reordered value value := by
  induction value using Value.induction with
  | step value ih =>
    cases hvalue : value.isCollection with
    | false => exact .leaf value hvalue
    | true =>
      have hchildren := List.forall₂_same.2 ih
      rcases value with _ | ⟨ty, _ | _ | payload⟩
      · cases hvalue
      · cases hvalue
      · cases hvalue
      · cases payload with
        | scalar content => cases hvalue
        | list items => exact .list ty hchildren
        | set members => exact .set ty hchildren (.refl _)
        | map entries => exact .map ty rfl hchildren

/-- The children of a value are reorderings of those of the other one, in some order. -/
lemma children {v w : Value} (h : Reordered v w) :
    ∃ arranged, List.Forall₂ Reordered v.children arranged ∧ arranged.Perm w.children := by
  cases h with
  | leaf hvalue => exact ⟨_, List.forall₂_same.2 fun child _ => refl child, .refl _⟩
  | list ty h => exact ⟨_, h, .refl _⟩
  | map ty hkeys h => exact ⟨_, h, .refl _⟩
  | set ty h hperm => exact ⟨_, h, hperm⟩

/-- Reorderings are of one form. -/
lemma sameForm {v w : Value} (h : Reordered v w) : SameForm v w := by
  induction v using Value.induction generalizing w with
  | step v ih =>
    obtain ⟨arranged, hchildren, hperm⟩ := h.children
    have hform := forall₂_imp_of_mem hchildren fun x hx y _ hxy => ih x hx hxy
    cases h with
    | leaf =>
      rcases v with _ | ⟨ty, _ | _ | payload⟩
      · exact .untyped
      · exact .null ty
      · exact .unknown ty
      · exact .known ty rfl hform hperm
    | list ty => exact .known ty rfl hform hperm
    | map ty => exact .known ty rfl hform hperm
    | set ty => exact .known ty rfl hform hperm

/-- Reorderings equal the same values. -/
lemma equal_eq_left {v w : Value} (h : Reordered v w) (other : Value) :
    v.equal other = w.equal other := by
  induction v using Value.induction generalizing w other with
  | step v ih =>
    cases h with
    | leaf => rfl
    | list ty h =>
      have hitems := forall₂_imp_of_mem h fun x hx y _ hxy => ih x hx hxy
      rcases other with _ | ⟨ty', _ | _ | _ | ys | _ | _⟩
      case typed.known.list =>
        rw [equal, equal, Payload.equal_list, Payload.equal_list, isEqv_eq_of_forall₂ hitems]
      all_goals rfl
    | @map ty entries entries' hkeys h =>
      have hvalues := forall₂_imp_of_mem h fun x hx y _ hxy => ih x hx hxy
      have hentries : List.Forall₂ (fun x x' => ∀ y : String × Value,
          (x.1 == y.1 && x.2.equal y.2) = (x'.1 == y.1 && x'.2.equal y.2)) entries entries' :=
        (Keyed.forall₂_of_keys_eq hkeys hvalues).imp fun x x' hx y => by rw [hx.1, hx.2 y.2]
      rcases other with _ | ⟨ty', _ | _ | _ | _ | _ | ys⟩
      case typed.known.map =>
        rw [equal, equal, Payload.equal_map, Payload.equal_map, isEqv_eq_of_forall₂ hentries]
      all_goals rfl
    | set ty h hperm =>
      have hmembers := forall₂_imp_of_mem h fun x hx y _ hxy => ih x hx hxy
      rcases other with _ | ⟨ty', _ | _ | _ | _ | ys | _⟩
      case typed.known.set =>
        -- first the members are exchanged for their reorderings, then their order is changed
        rw [equal, equal, Payload.equal_set, Payload.equal_set, matched_eq_of_forall₂ hmembers,
          matched_congr_perm (fun x _ => x.partialEquivAt_equal) hperm]
      all_goals rfl

/-- Equality does not tell reorderings apart, on either side. -/
lemma equal_eq {v v' w w' : Value} (hv : Reordered v v') (hw : Reordered w w') :
    v.equal w = v'.equal w' := by
  rw [hv.equal_eq_left, v'.partialEquivAt_equal.comm, hw.equal_eq_left,
    w'.partialEquivAt_equal.comm]

lemma isFullyKnown_eq {v w : Value} (h : Reordered v w) : v.isFullyKnown = w.isFullyKnown :=
  Bool.eq_iff_iff.2 h.sameForm.isFullyKnown_iff

end Reordered

end Wire.Value

end TypedAttributes
