/-
# Equality of attribute types

Equality of types is symmetric and transitive, but a type equals itself only if no collection in it
lacks its element type.  The same condition decides whether a type has a wire type, and equal types
have the same one: custom types, which equality tells apart by name, do not show on the wire.
-/
import Mathlib.Tactic.Common
import TypedAttributes.Attribute.Ty
import TypedAttributes.Proofs.Traversal

namespace TypedAttributes.Attribute.Ty

variable {ρ : Type}

/-- Whether no collection in a type, bases of custom types included, lacks its element type. -/
def isComplete : Ty ρ → Bool
  | .scalar _ => true
  | .collection _ element => element.isComplete
  | .bare _ => false
  | .custom _ base _ => base.isComplete

/-! ## Wire types -/

lemma wireTy_collection_eq_ok_iff {shape : Shape} {element : Ty ρ} {wire : Wire.Ty} :
    (Ty.collection shape element).wireTy = .ok wire ↔
      ∃ e, element.wireTy = .ok e ∧ wire = .collection shape e := by
  rw [wireTy, bind_eq_ok_iff]
  refine exists_congr fun e => and_congr_right fun _ => ?_
  rw [pure_eq_ok_iff]
  exact eq_comm

lemma isComplete_iff {ty : Ty ρ} : ty.isComplete = true ↔ ∃ wire, ty.wireTy = .ok wire := by
  induction ty with
  | scalar kind => simp [isComplete, wireTy]
  | collection shape element ih =>
    simp only [isComplete, ih, wireTy_collection_eq_ok_iff]
    constructor
    · rintro ⟨e, he⟩
      exact ⟨_, e, he, rfl⟩
    · rintro ⟨_, e, he, -⟩
      exact ⟨e, he⟩
  | bare shape => simp [isComplete, wireTy]
  | custom name base validation ih => simpa [isComplete, wireTy] using ih

/-! ## What equals a type -/

lemma equal_scalar_iff {kind : Scalar.Kind} {ty : Ty ρ} :
    ty.equal (.scalar kind) = true ↔ ty = .scalar kind := by
  cases ty <;> simp [equal]

lemma equal_collection_iff {shape : Shape} {element ty : Ty ρ} :
    ty.equal (.collection shape element) = true ↔
      ∃ e, ty = .collection shape e ∧ e.equal element = true := by
  cases ty with
  | collection s e =>
    rw [equal, Bool.and_eq_true, beq_iff_eq]
    constructor
    · rintro ⟨rfl, he⟩
      exact ⟨e, rfl, he⟩
    · rintro ⟨_, heq, he⟩
      cases heq
      exact ⟨rfl, he⟩
  | _ => simp [equal]

lemma equal_bare (shape : Shape) (ty : Ty ρ) : ty.equal (.bare shape) = false := by
  cases ty <;> rfl

lemma equal_ofElement_iff {shape : Shape} {declared : Option (Ty ρ)} {ty : Ty ρ} :
    ty.equal (.ofElement shape declared) = true ↔
      ∃ element d, ty = .collection shape element ∧ declared = some d ∧ element.equal d = true := by
  cases declared with
  | none => simp [ofElement, equal_bare]
  | some d => simp [ofElement, equal_collection_iff]

lemma equal_custom_iff {name : String} {base ty : Ty ρ} {validation : Validation ρ} :
    ty.equal (.custom name base validation) = true ↔
      ∃ b v, ty = .custom name b v ∧ b.equal base = true := by
  cases ty with
  | custom n b v =>
    rw [equal, Bool.and_eq_true, beq_iff_eq]
    constructor
    · rintro ⟨rfl, hb⟩
      exact ⟨b, v, rfl, hb⟩
    · rintro ⟨_, _, heq, hb⟩
      cases heq
      exact ⟨rfl, hb⟩
  | _ => simp [equal]

/-! ## Laws -/

lemma equal_comm (a b : Ty ρ) : a.equal b = b.equal a := by
  induction a generalizing b with
  | scalar kind => cases b <;> simp [equal, Bool.beq_comm]
  | collection shape element ih => cases b <;> simp [equal, ih, Bool.beq_comm]
  | bare shape => cases b <;> rfl
  | custom name base validation ih => cases b <;> simp [equal, ih, Bool.beq_comm]

lemma equal_trans {a b c : Ty ρ} (hab : a.equal b = true) (hbc : b.equal c = true) :
    a.equal c = true := by
  induction c generalizing a b with
  | scalar kind =>
    rw [equal_scalar_iff.1 hbc] at hab
    exact hab
  | collection shape element ih =>
    obtain ⟨e, rfl, he⟩ := equal_collection_iff.1 hbc
    obtain ⟨d, rfl, hd⟩ := equal_collection_iff.1 hab
    exact equal_collection_iff.2 ⟨d, rfl, ih hd he⟩
  | bare shape => simp [equal_bare] at hbc
  | custom name base validation ih =>
    obtain ⟨b₁, v₁, rfl, hb₁⟩ := equal_custom_iff.1 hbc
    obtain ⟨b₂, v₂, rfl, hb₂⟩ := equal_custom_iff.1 hab
    exact equal_custom_iff.2 ⟨b₂, v₂, rfl, ih hb₂ hb₁⟩

/-- A type equals itself exactly when it is complete. -/
lemma equal_self (ty : Ty ρ) : ty.equal ty = ty.isComplete := by
  induction ty with
  | scalar kind => simp [equal, isComplete]
  | collection shape element ih => simp [equal, isComplete, ih]
  | bare shape => rfl
  | custom name base validation ih => simp [equal, isComplete, ih]

/-- Equal types are exchanged as the same wire type. -/
lemma wireTy_of_equal {a b : Ty ρ} (h : a.equal b = true) :
    ∃ wire, a.wireTy = .ok wire ∧ b.wireTy = .ok wire := by
  induction b generalizing a with
  | scalar kind =>
    rw [equal_scalar_iff.1 h]
    exact ⟨.scalar kind, rfl, rfl⟩
  | collection shape element ih =>
    obtain ⟨e, rfl, he⟩ := equal_collection_iff.1 h
    obtain ⟨wire, hwire, hwire'⟩ := ih he
    exact ⟨.collection shape wire, wireTy_collection_eq_ok_iff.2 ⟨wire, hwire, rfl⟩,
      wireTy_collection_eq_ok_iff.2 ⟨wire, hwire', rfl⟩⟩
  | bare shape => simp [equal_bare] at h
  | custom name base validation ih =>
    obtain ⟨b, v, rfl, hb⟩ := equal_custom_iff.1 h
    obtain ⟨wire, hwire, hwire'⟩ := ih hb
    exact ⟨wire, hwire, hwire'⟩

end TypedAttributes.Attribute.Ty
