/-
# Values with parts made unknown

While a plan is made, parts of a value may not be known yet that are known when it is carried out.
One value is another one blanked if it comes from it by replacing some of what is in it, at any
depth, by values that are not yet known, of whatever types.

A blanked value that is fully known is the value that it comes from, as every replacement leaves an
unknown node behind.
-/
import TypedAttributes.Proofs.KeyOrder
import TypedAttributes.Proofs.Wire.Tree

namespace TypedAttributes.Wire.Value

/-- Whether the second value comes from the first by making some of its nodes unknown. -/
inductive Blanked : Value → Value → Prop
  /-- Nothing is replaced. -/
  | same (value : Value) : Blanked value value
  /-- The value is replaced as a whole. -/
  | unknown (value : Value) (ty : Ty) : Blanked value (.typed ty .unknown)
  | list (ty : Ty) {items items' : List Value} (h : List.Forall₂ Blanked items items') :
      Blanked (.typed ty (.known (.list items))) (.typed ty (.known (.list items')))
  | set (ty : Ty) {members members' : List Value} (h : List.Forall₂ Blanked members members') :
      Blanked (.typed ty (.known (.set members))) (.typed ty (.known (.set members')))
  | map (ty : Ty) {entries entries' : List (String × Value)}
      (hkeys : Keyed.keys entries = Keyed.keys entries')
      (h : List.Forall₂ Blanked (entries.map Prod.snd) (entries'.map Prod.snd)) :
      Blanked (.typed ty (.known (.map entries))) (.typed ty (.known (.map entries')))

/-- In a blanked value that is fully known nothing was replaced. -/
lemma Blanked.eq_of_isFullyKnown {value blanked : Value} (h : Blanked value blanked)
    (hknown : blanked.isFullyKnown = true) : value = blanked := by
  induction value using Value.induction generalizing blanked with
  | step value ih =>
    have hchildren := (isFullyKnown_iff.1 hknown).2
    have hsame {xs ys : List Value} (h : List.Forall₂ Blanked xs ys)
        (hxs : ∀ x ∈ xs, x ∈ value.children)
        (hys : ∀ y ∈ ys, y.isFullyKnown = true) : xs = ys := by
      rw [← List.forall₂_eq_eq_eq]
      exact forall₂_imp_of_mem h fun x hx y hy hxy => ih x (hxs x hx) hxy (hys y hy)
    cases h with
    | same => rfl
    | unknown => cases hknown
    | list ty h => rw [hsame h (fun _ hx => hx) hchildren]
    | set ty h => rw [hsame h (fun _ hx => hx) hchildren]
    | map ty hkeys h => rw [Keyed.ext hkeys (hsame h (fun _ hx => hx) hchildren)]

end TypedAttributes.Wire.Value
