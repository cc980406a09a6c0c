/-
# What a checked payload is

A payload fits a wire type when it has the kind of the type and every child declares the element
type, is there a payload in the child, and fits it in turn.  `Payload.check_eq_ok_iff` unrolls this
by one level; whoever argues about checked values argues by induction on the type with it.
-/
import TypedAttributes.Wire.Checked
import TypedAttributes.Proofs.Traversal
import TypedAttributes.Proofs.Wire.Tree

namespace TypedAttributes.Wire

/-- Whether every node of a value declares a type. -/
def Value.fullyTyped (value : Value) : Bool := value.all fun node => node.ty?.isSome

/-- A payload is accepted when its kind is that of the type, every child declares the element type,
and the payload of every known child is accepted for it. -/
lemma Payload.check_eq_ok_iff {ty : Ty} {payload : Payload} :
    payload.check ty = .ok () ↔
      payload.kind = ty.kind ∧ ∀ child ∈ payload.children, ∃ element, ty.element? = some element ∧
        child.ty? = some element ∧
        ∀ inner, child.payload? = some inner → inner.check element = .ok () := by
  cases ty with
  | scalar kind =>
    rw [check]
    split
    next hkind =>
      obtain ⟨content, rfl, -⟩ := eq_scalar_of_kind hkind
      simp [hkind, Ty.kind, children]
    next hkind => simp [hkind, Ty.kind]
  | collection shape element =>
    rw [check]
    split
    next hkind =>
      rw [forM_eq_ok_iff]
      simp only [hkind, Ty.kind, true_and, Ty.element?, Option.some.injEq, exists_eq_left']
      refine forall₂_congr fun child _ => ?_
      by_cases hty : child.ty? = some element
      · rw [if_pos hty]
        cases hpayload : child.payload? <;> simp [hty]
      · simp [hty]
    next hkind => simp [hkind, Ty.kind]

lemma Value.checked_eq_ok_iff {ty : Ty} {payload : Payload} {value : Value} :
    Value.checked ty payload = .ok value ↔ payload.check ty = .ok () ∧
      value = .known ty payload := by
  rw [Value.checked, bind_eq_ok_iff]
  constructor
  · rintro ⟨⟨⟩, hcheck, h⟩
    exact ⟨hcheck, (pure_eq_ok_iff.1 h).symm⟩
  · rintro ⟨hcheck, rfl⟩
    exact ⟨(), hcheck, rfl⟩

end TypedAttributes.Wire
