/-
# What conversion accepts

A wire value is converted exactly when the type is complete, the value fits the type, and no way
down the value passes through more known collections than the limit.  Whether a value fits is
decided node by node against the element types, untyped nodes being allowed everywhere; where there
are none, the known values that fit are those that are checked for the wire type of the type.  The
two are defined apart: fitting by recursion on attribute types, checking by recursion on wire types.
-/
import TypedAttributes.Proofs.Attribute.Conversion

namespace TypedAttributes.Attribute.Ty

variable {ρ : Type}

/-- Where every node declares a type, a known value fits exactly when its payload is accepted for
the wire type. -/
lemma fits_known_iff_check {ty : Ty ρ} {wire : Wire.Ty} {payload : Wire.Payload}
    (hwire : ty.wireTy = .ok wire)
    (htyped : ∀ child ∈ payload.children, child.fullyTyped = true) :
    ty.fits (.known wire payload) = true ↔ payload.check wire = .ok () := by
  induction ty generalizing wire payload with
  | scalar kind =>
    cases hwire
    rw [Wire.Value.known, fits_scalar_iff, Wire.Payload.check_eq_ok_iff]
    constructor
    · rintro ⟨-, hkind⟩
      obtain ⟨content, rfl⟩ := kind_scalar_iff.1 (hkind payload rfl)
      exact ⟨hkind _ rfl, by simp⟩
    · rintro ⟨hkind, -⟩
      refine ⟨rfl, ?_⟩
      rintro _ ⟨⟩
      exact hkind
  | collection shape element ih =>
    obtain ⟨e, he, rfl⟩ := wireTy_collection_eq_ok_iff.1 hwire
    -- child by child: a type is declared on both sides, so only the payloads have to be compared
    have hchild : ∀ child ∈ payload.children, (element.fits child = true ↔
        ∃ e', Wire.Ty.element? (.collection shape e) = some e' ∧ child.ty? = some e' ∧
          ∀ inner, child.payload? = some inner → inner.check e' = .ok ()) := by
      intro child hmem
      have hnodes := Wire.Value.all_iff.1 (htyped child hmem)
      simp only [Wire.Ty.element?, Option.some.injEq, exists_eq_left']
      rcases child with _ | ⟨declared, state⟩
      · simp [Wire.Value.ty?] at hnodes
      · constructor
        · intro hfits
          have hdeclared : declared = e := Except.ok.inj ((wireTy_of_fits hfits).symm.trans he)
          subst hdeclared
          refine ⟨rfl, fun inner hinner => ?_⟩
          cases state <;> cases hinner
          exact (ih he hnodes.2).1 hfits
        · rintro ⟨hdeclared, hinner⟩
          obtain rfl : declared = e := by simpa [Wire.Value.ty?] using hdeclared
          rcases state with _ | _ | inner
          · exact fits_of_known?_eq_none he rfl
          · exact fits_of_known?_eq_none he rfl
          · exact (ih he hnodes.2).2 (hinner inner rfl)
    rw [Wire.Value.known, fits_collection_iff, Wire.Payload.check_eq_ok_iff]
    constructor
    · rintro ⟨-, hpayload⟩
      obtain ⟨hkind, hfits⟩ := hpayload payload rfl
      exact ⟨hkind, fun child hmem => (hchild child hmem).1 (hfits child hmem)⟩
    · rintro ⟨hkind, hchecks⟩
      refine ⟨hwire, ?_⟩
      rintro _ ⟨⟩
      exact ⟨hkind, fun child hmem => (hchild child hmem).2 (hchecks child hmem)⟩
  | bare shape => cases hwire
  | custom name base validation ih =>
    rw [fits_custom]
    exact ih hwire htyped

/-- Conversion under a limit succeeds exactly when the type is complete, the value fits it, and no
way down the value passes through more known collections than the limit.  And a known value of the
wire type of a type, in which every node declares a type, fits exactly when it is checked. -/
theorem ofWireValue_isOk_iff_fits (ty : Ty ρ) (input : Wire.Value) (limits : Limits) :
    ((∃ value, ty.ofWireValue input limits = .ok value) ↔
      ty.isComplete = true ∧ ty.fits input = true ∧
        ∀ path, Wire.Value.Descent input path →
          path.countP Wire.Value.isCollection ≤ limits.maxDepth) ∧
    ∀ wire payload, ty.wireTy = .ok wire → input = .known wire payload → input.fullyTyped = true →
      (ty.fits input = true ↔ Wire.Value.checked wire payload = .ok input) := by
  constructor
  · simp only [ofWireValue, convert_eq_ok_iff, exists_and_left, exists_eq, and_true,
      Walk.room_start, Wire.Value.nesting_le_iff_descents]
  · rintro wire payload hwire rfl htyped
    rw [fits_known_iff_check hwire (Wire.Value.all_iff.1 htyped).2, Wire.Value.checked_eq_ok_iff]
    simp

/-- Rows of names, as a custom type. -/
def rows : Ty Empty :=
  .custom "Rows" (.collection .list (.collection .set (.scalar .string))) .none

/-- An empty row and one that is null. -/
def someRows : Wire.Payload :=
  .list [.set (.scalar .string) [], .null (.collection .set (.scalar .string))]

/-- The empty row counts as a level: the rows are accepted under a limit of two and not under
one. -/
theorem ofWireValue_isOk_iff_fits_rows :
    let wire : Wire.Ty := .collection .list (.collection .set (.scalar .string))
    let input : Wire.Value := .known wire someRows
    (∃ value, rows.ofWireValue input ⟨2⟩ = .ok value) ∧
      (¬ ∃ value, rows.ofWireValue input ⟨1⟩ = .ok value) ∧
      rows.wireTy = .ok wire ∧ input.fullyTyped = true ∧
      (rows.fits input = true ↔ Wire.Value.checked wire someRows = .ok input) := by
  intro wire input
  refine ⟨(ofWireValue_isOk_iff_fits rows input ⟨2⟩).1.2 ⟨by decide, by decide, ?_⟩, fun h => ?_,
    rfl, by decide, (ofWireValue_isOk_iff_fits rows input ⟨2⟩).2 wire someRows rfl rfl (by decide)⟩
  · exact (Wire.Value.nesting_le_iff_descents input 2).1 (by decide)
  · have hpaths := ((ofWireValue_isOk_iff_fits rows input ⟨1⟩).1.1 h).2.2
    exact absurd ((Wire.Value.nesting_le_iff_descents input 1).2 hpaths) (by decide)

end TypedAttributes.Attribute.Ty
