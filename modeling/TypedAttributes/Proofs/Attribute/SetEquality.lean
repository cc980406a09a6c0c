/-
# Equality of sets is equality of multisets

Sets are compared by giving each member the first free equal member of the other set.  A choice is
never taken back, so for an arbitrary comparison of members some pairings would be missed.  Members
are compared by equality of values, which is a partial equivalence, and then none is: sets are equal
exactly when their positions can be paired one to one with equal members at paired positions.  This
holds of the members of wire sets as of those of typed sets, and of members that are sets
themselves.
-/
import TypedAttributes.Proofs.Attribute.EqualityLaws

namespace TypedAttributes.Attribute

variable {ρ : Type}

/-- Set payloads of wire values are equal exactly when their members can be paired one to one, equal
with equal; known typed sets are when their element types are equal too. -/
theorem equal_set_iff_paired :
    (∀ xs ys : List Wire.Value,
      (Wire.Payload.set xs).equal (.set ys) = true ↔ Paired Wire.Value.equal xs ys) ∧
      ∀ (a b : Option (Ty ρ)) (xs ys : List (Value ρ)),
        (Value.set a (.known xs)).equal (.set b (.known ys)) = true ↔
          Ty.elementsEqual a b = true ∧ Paired Value.equal xs ys := by
  constructor
  · intro xs ys
    rw [Wire.Payload.equal_set, matched_iff_paired fun x _ => x.partialEquivAt_equal]
  · intro a b xs ys
    rw [Value.equal_set, State.equal, Bool.and_eq_true,
      matched_iff_paired fun x _ => x.partialEquivAt_equal]

end TypedAttributes.Attribute
