/-
# Complete types

A collection type may lack its element type, and such a type may stand anywhere in another one.
Three functions find this out, each by its own way down the type: equality, by which the type then
equals nothing, the wire type, which then does not exist, and conversion, which then refuses
everything.  They agree, and what they agree on is that somewhere in the type there is a collection
that lacks its element type.

Apart from that equality is the equality of wire types, as long as no custom types are involved: a
type without custom types can be read off its wire type.  Custom types are told apart by name, which
the wire type does not show.
-/
import TypedAttributes.Proofs.Attribute.DepthLimit
import TypedAttributes.Proofs.Attribute.Validation

namespace TypedAttributes.Attribute.Ty

variable {ρ : Type}

/-! ## What is missing in a type -/

/-- Whether a type is another one or occurs in it, as an element type or as the base of a custom
type. -/
inductive Occurs (inner : Ty ρ) : Ty ρ → Prop
  /-- A type itself. -/
  | self : Occurs inner inner
  /-- What occurs in an element type. -/
  | element {shape : Shape} {element : Ty ρ} (h : Occurs inner element) :
      Occurs inner (.collection shape element)
  /-- What occurs in a base. -/
  | base {name : String} {base : Ty ρ} {validation : Validation ρ} (h : Occurs inner base) :
      Occurs inner (.custom name base validation)

lemma isComplete_of_occurs {inner ty : Ty ρ} (h : Occurs inner ty) (hty : ty.isComplete = true) :
    inner.isComplete = true := by
  induction h with
  | self => exact hty
  | element _ ih => exact ih hty
  | base _ ih => exact ih hty

/-- A type that is not complete has a collection in it that lacks its element type.  The error about
this collection is what there is in the place of a wire type, and all that conversion ever gives. -/
lemma exists_missing {ty : Ty ρ} (h : ty.isComplete = false) :
    ∃ shape, Occurs (.bare shape) ty ∧ ty.wireTy = .error (.missingElementType shape) ∧
      ∀ input walk, ty.convert input walk = .error (.missingElementType shape) := by
  induction ty with
  | scalar kind => cases h
  | collection shape element ih =>
    obtain ⟨missing, hoccurs, hwire, -⟩ := ih h
    have hcollection :
        (collection shape element).wireTy = .error (.missingElementType missing) := by
      rw [wireTy, hwire]
      rfl
    refine ⟨missing, .element hoccurs, hcollection, fun input walk => ?_⟩
    -- the wire type is asked for before anything of the value
    rw [convert_collection, hcollection]
    rfl
  | bare shape => exact ⟨shape, .self, rfl, fun _ _ => rfl⟩
  | custom name base validation ih =>
    obtain ⟨missing, hoccurs, hwire, hconvert⟩ := ih h
    refine ⟨missing, .base hoccurs, hwire, fun input walk => ?_⟩
    rw [convert, hconvert]
    rfl

/-- A type is complete when no collection in it lacks its element type. -/
lemma isComplete_iff_not_occurs {ty : Ty ρ} :
    ty.isComplete = true ↔ ∀ shape, ¬ Occurs (.bare shape) ty := by
  constructor
  · intro h shape hoccurs
    cases isComplete_of_occurs hoccurs h
  · intro h
    cases hcomplete : ty.isComplete with
    | true => rfl
    | false =>
      obtain ⟨shape, hoccurs, -⟩ := exists_missing hcomplete
      exact absurd hoccurs (h shape)

/-- A value without a type is converted by every complete type. -/
lemma exists_ofWireValue_untyped_iff {ty : Ty ρ} {limits : Limits} :
    (∃ value, ty.ofWireValue .untyped limits = .ok value) ↔ ty.isComplete = true := by
  constructor
  · rintro ⟨value, h⟩
    exact (convert_eq_ok_iff.1 h).1.1
  · intro h
    exact ⟨_, convert_eq_ok_iff.2 ⟨⟨h, ty.fits_untyped, Nat.zero_le _⟩, rfl⟩⟩

/-! ## Types without custom types -/

/-- A type without custom types can be read off its wire type. -/
lemma eq_of_wireTy {a b : Ty ρ} {wire : Wire.Ty} (ha : a.customFree = true)
    (hb : b.customFree = true) (hwire : a.wireTy = .ok wire) (hwire' : b.wireTy = .ok wire) :
    a = b := by
  induction a generalizing b wire with
  | scalar kind =>
    cases hwire
    cases b with
    | scalar kind' =>
      cases hwire'
      rfl
    | collection shape element =>
      obtain ⟨_, -, heq⟩ := wireTy_collection_eq_ok_iff.1 hwire'
      cases heq
    | bare shape => cases hwire'
    | custom name base validation => cases hb
  | collection shape element ih =>
    obtain ⟨e, he, rfl⟩ := wireTy_collection_eq_ok_iff.1 hwire
    cases b with
    | scalar kind => cases hwire'
    | collection shape' element' =>
      obtain ⟨e', he', heq⟩ := wireTy_collection_eq_ok_iff.1 hwire'
      cases heq
      obtain rfl : element = element' := ih ha hb he he'
      rfl
    | bare shape' => cases hwire'
    | custom name base validation => cases hb
  | bare shape => cases hwire
  | custom name base validation => cases ha

/-! ## The laws -/

/-- Equality of types is symmetric and transitive.  A type equals itself exactly when it has a wire
type, when a value without a type is converted by it, and when no collection in it, bases of custom
types included, lacks its element type; otherwise conversion fails for every value and under every
limit with the error about such a collection.  Equal types have one wire type, and types without
custom types that have one wire type are equal. -/
theorem equal_symm_trans_complete (a b c : Ty ρ) :
    (a.equal b = true → b.equal a = true) ∧
      (a.equal b = true → b.equal c = true → a.equal c = true) ∧
      (a.equal a = true ↔ ∃ wire, a.wireTy = .ok wire) ∧
      (∀ limits, a.equal a = true ↔ ∃ value, a.ofWireValue .untyped limits = .ok value) ∧
      (a.equal a = true ↔ ∀ shape, ¬ Occurs (.bare shape) a) ∧
      (a.equal a = false → ∃ shape, Occurs (.bare shape) a ∧
        ∀ input limits, a.ofWireValue input limits = .error (.missingElementType shape)) ∧
      (a.equal b = true → ∃ wire, a.wireTy = .ok wire ∧ b.wireTy = .ok wire) ∧
      (a.customFree = true → b.customFree = true →
        (a.equal b = true ↔ ∃ wire, a.wireTy = .ok wire ∧ b.wireTy = .ok wire)) := by
  refine ⟨fun h => (equal_comm b a).trans h, equal_trans, ?_, fun limits => ?_, ?_, fun h => ?_,
    wireTy_of_equal, fun ha hb => ⟨wireTy_of_equal, ?_⟩⟩
  · rw [equal_self, isComplete_iff]
  · rw [equal_self, exists_ofWireValue_untyped_iff]
  · rw [equal_self, isComplete_iff_not_occurs]
  · rw [equal_self] at h
    obtain ⟨shape, hoccurs, -, hconvert⟩ := exists_missing h
    exact ⟨shape, hoccurs, fun input limits => hconvert input (.start limits)⟩
  · rintro ⟨wire, hwire, hwire'⟩
    obtain rfl := eq_of_wireTy ha hb hwire hwire'
    rw [equal_self]
    exact isComplete_iff.2 ⟨wire, hwire⟩

/-- Lists of labels, where a label is a text that is validated in some way. -/
def labels (validation : Validation Unit) : Ty Unit :=
  .collection .list (.custom "Label" (.scalar .string) validation)

/-- Lists of rows, where nothing is said of what is in a row. -/
def openRows : Ty Unit := .collection .list (.custom "Row" (.bare .set) .none)

/-- Labels are equal in whatever way they are validated.  Rows of which nothing is said do not equal
themselves: not even a value without a type is converted to them.  Lists of texts are equal by their
wire type, which they share with lists of labels. -/
theorem equal_symm_trans_complete_labels :
    let texts : Ty Unit := .collection .list (.scalar .string)
    (labels .none).equal (labels .ofBase) = true ∧
      (labels .ofBase).equal (labels (.rule ())) = true ∧
      (labels .ofBase).equal (labels .none) = true ∧
        (labels .none).equal (labels (.rule ())) = true ∧
      (∃ wire, (labels .none).wireTy = .ok wire ∧ (labels .ofBase).wireTy = .ok wire) ∧
      openRows.equal openRows = false ∧
      (∃ shape, Occurs (.bare shape) openRows ∧
        ∀ input limits, openRows.ofWireValue input limits = .error (.missingElementType shape)) ∧
      texts.customFree = true ∧
      (texts.equal texts = true ↔ ∃ wire, texts.wireTy = .ok wire ∧ texts.wireTy = .ok wire) ∧
      texts.wireTy = (labels .none).wireTy ∧ texts.equal (labels .none) = false := by
  intro texts
  have hab : (labels .none).equal (labels .ofBase) = true := rfl
  have hbc : (labels .ofBase).equal (labels (.rule ())) = true := rfl
  have hfree : texts.customFree = true := rfl
  obtain ⟨hsymm, htrans, -, -, -, -, hwire, -⟩ :=
    equal_symm_trans_complete (labels .none) (labels .ofBase) (labels (.rule ()))
  obtain ⟨-, -, -, -, -, hmissing, -, -⟩ := equal_symm_trans_complete openRows openRows openRows
  obtain ⟨-, -, -, -, -, -, -, hshown⟩ := equal_symm_trans_complete texts texts texts
  exact ⟨hab, hbc, hsymm hab, htrans hab hbc, hwire hab, rfl, hmissing rfl, hfree,
    hshown hfree hfree, rfl, rfl⟩

end TypedAttributes.Attribute.Ty
