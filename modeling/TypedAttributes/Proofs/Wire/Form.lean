/-
# Values of one form

Two values are of one form when they declare the same types, are in the same states and have
payloads of the same kinds, node by node, after the children of nodes have been rearranged.  Scalars
and keys are not compared.  Values that are equal are of one form, and so are values that differ in
the order in which the members of sets are listed.

Whether everything in a value is determined, and how deep it is nested, is a matter of its form.
-/
import Mathlib.Order.Lattice
import TypedAttributes.Proofs.Traversal
import TypedAttributes.Proofs.Wire.Tree

namespace TypedAttributes.Wire.Value

/-- Whether two values are of one form. -/
inductive SameForm : Value → Value → Prop
  | untyped : SameForm .untyped .untyped
  | null (ty : Ty) : SameForm (.typed ty .null) (.typed ty .null)
  | unknown (ty : Ty) : SameForm (.typed ty .unknown) (.typed ty .unknown)
  /-- Known values of one type with payloads of one kind, and children that are of one form in some
  order. -/
  | known (ty : Ty) {p q : Payload} {arranged : List Value} (hkind : p.kind = q.kind)
      (hchildren : List.Forall₂ SameForm p.children arranged) (hperm : arranged.Perm q.children) :
      SameForm (.typed ty (.known p)) (.typed ty (.known q))

namespace SameForm

/-- A value that is not known is of one form with itself. -/
lemma of_payload?_eq_none {value : Value} (h : value.payload? = none) : SameForm value value := by
  rcases value with _ | ⟨ty, _ | _ | payload⟩
  · exact .untyped
  · exact .null ty
  · exact .unknown ty
  · cases h

/-- What is the same for children of one form is so for all children on both sides or on neither. -/
lemma forall_children_congr {P : Value → Prop} {xs ys arranged : List Value}
    (hchildren : List.Forall₂ SameForm xs arranged) (hperm : arranged.Perm ys)
    (h : ∀ x ∈ xs, ∀ y, SameForm x y → (P x ↔ P y)) : (∀ x ∈ xs, P x) ↔ ∀ y ∈ ys, P y := by
  rw [forall_mem_congr hchildren h]
  exact forall_congr' fun y => by rw [hperm.mem_iff]

lemma isFullyKnown_iff {a b : Value} (h : SameForm a b) :
    a.isFullyKnown = true ↔ b.isFullyKnown = true := by
  induction a using Value.induction generalizing b with
  | step a ih =>
    rw [Value.isFullyKnown_iff, Value.isFullyKnown_iff]
    cases h with
    | untyped => rfl
    | null => rfl
    | unknown => rfl
    | known ty hkind hchildren hperm =>
      exact and_congr_right fun _ =>
        forall_children_congr hchildren hperm fun x hx y hxy => ih x hx hxy

lemma nesting_eq {a b : Value} (h : SameForm a b) : a.nesting = b.nesting := by
  induction a using Value.induction generalizing b with
  | step a ih =>
    cases h with
    | untyped => rfl
    | null => rfl
    | unknown => rfl
    | @known ty p q arranged hkind hchildren hperm =>
      have hcollection : (typed ty (.known p)).isCollection = (typed ty (.known q)).isCollection :=
        Payload.isCollection_eq_of_kind hkind
      cases hp : (typed ty (.known p)).isCollection with
      | false =>
        rw [nesting_of_not_isCollection hp, nesting_of_not_isCollection (hcollection ▸ hp)]
      | true =>
        -- both are within the same limits, as their children are
        refine eq_of_forall_ge_iff fun limit => ?_
        rw [nesting_le_iff hp, nesting_le_iff (hcollection ▸ hp)]
        refine and_congr_right fun _ =>
          forall_children_congr hchildren hperm fun x hx y hxy => ?_
        rw [ih x hx hxy]

end SameForm

end TypedAttributes.Wire.Value
