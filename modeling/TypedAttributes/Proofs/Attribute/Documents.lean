/-
# Documents as typed values

A document passes through four recursions: it is decoded by a wire type, converted by the attribute
type that the wire type belongs to, and encoded twice on the way back.  Each of them has its own
idea of a type.  They agree: a document that is decoded is converted whenever the limit leaves room
for the levels of the type, and what comes back is the decoded value itself, and the document with
its numbers rounded to doubles.
-/
import TypedAttributes.Proofs.Wire.JsonDecoding
import TypedAttributes.Proofs.Attribute.Acceptance
import TypedAttributes.Proofs.Attribute.DecodeEncode
import TypedAttributes.Proofs.Attribute.DepthLimit
import TypedAttributes.Proofs.Attribute.Tree

namespace TypedAttributes.Attribute

variable {ρ : Type}

namespace Value

/-- Whether nothing in a value is unknown. -/
def unknownFree (value : Value ρ) : Bool := value.all fun node => !node.isUnknown

lemma unknownFree_iff {value : Value ρ} :
    value.unknownFree = true ↔
      value.isUnknown = false ∧ ∀ part ∈ value.parts, part.unknownFree = true := by
  rw [unknownFree, all_iff, Bool.not_eq_true']
  rfl

end Value

namespace Ty

/-! ## Interpretations without unknowns -/

lemma isUnknown_scalarState (kind : Scalar.Kind) (state : State Wire.Payload) :
    (scalarState kind state).isUnknown = state.isUnknown := by
  rcases state with _ | _ | content | _ | _ | _
  · rfl
  · rfl
  · rw [scalarState]
    cases kind.unwrap? content <;> rfl
  · rfl
  · rfl
  · rfl

/-- What is determined throughout stands for a value in which nothing is unknown. -/
lemma unknownFree_interpret (ty : Ty ρ) {input : Wire.Value} (h : input.isFullyKnown = true) :
    (ty.interpret input).unknownFree = true := by
  induction ty generalizing input with
  | scalar kind =>
    have hknown := (Wire.Value.isFullyKnown_iff.1 h).1
    refine Value.unknownFree_iff.2 ⟨?_, nofun⟩
    rw [interpret, Value.isUnknown, isUnknown_scalarState]
    simpa [Wire.Value.isKnown] using hknown
  | collection shape element ih =>
    obtain ⟨hknown, hchildren⟩ := Wire.Value.isFullyKnown_iff.1 h
    rcases input with _ | ⟨declared, _ | _ | payload⟩
    · cases shape <;> rfl
    · cases shape <;> rfl
    · cases hknown
    · refine Value.unknownFree_iff.2 ⟨by cases shape <;> rfl, fun part hpart => ?_⟩
      obtain ⟨child, hchild, rfl⟩ := exists_child_of_mem_parts hpart
      exact ih (hchildren child hchild)
  | bare shape => cases shape <;> rfl
  | custom name base validation ih =>
    have hinner := ih h
    refine Value.unknownFree_iff.2 ⟨(Value.unknownFree_iff.1 hinner).1, fun part hpart => ?_⟩
    obtain rfl := List.mem_singleton.1 hpart
    exact hinner

/-! ## The passage of a document -/

/-- A value of the wire type of a type that is null or checked, with a type at every node, fits the
type. -/
lemma fits_of_nullOrChecked {ty : Ty ρ} {wire : Wire.Ty} {input : Wire.Value}
    (hwire : ty.wireTy = .ok wire) (hinput : input.NullOrChecked wire)
    (htyped : input.fullyTyped = true) : ty.fits input = true := by
  obtain rfl | ⟨payload, rfl, hcheck⟩ := hinput
  · exact fits_of_known?_eq_none hwire rfl
  · exact (fits_known_iff_check hwire (Wire.Value.all_iff.1 htyped).2).2 hcheck

/-- A document that is decoded by the wire type of a type is converted, if the limit leaves room for
as many collections as are nested in the type.  The typed value has the type and nothing in it is
unknown; it is encoded as the decoded value exactly, and that as the document with every number
replaced by the double nearest to it, than which no finite double is nearer to the number. -/
theorem ofWireValue_of_ofJson (ty : Ty ρ) (wire : Wire.Ty) (json : Json) (input : Wire.Value)
    (limits : Limits) (hwire : ty.wireTy = .ok wire) (hkeys : json.keysAscend = true)
    (hjson : Wire.Value.ofJson wire json = .ok input) (hlevels : ty.levels ≤ limits.maxDepth) :
    ∃ value, ty.ofWireValue input limits = .ok value ∧ value.ty = ty ∧ value.unknownFree = true ∧
      value.toWire = .ok input ∧ input.toJson = .ok json.rounded ∧
      json.RoundsTo json.rounded := by
  obtain ⟨hmatches, rfl⟩ := Wire.Value.ofJson_eq_ok_iff.1 hjson
  have htyped := Wire.Ty.fullyTyped_decoded wire json
  have hfits := fits_of_nullOrChecked hwire (Wire.Value.nullOrChecked_decoded hmatches) htyped
  have hroom : (wire.decoded json).nesting ≤ (Walk.start limits).room := by
    rw [Walk.room_start]
    exact (nesting_le_levels hfits).trans hlevels
  refine ⟨ty.interpret (wire.decoded json),
    convert_eq_ok_iff.2 ⟨⟨isComplete_iff.2 ⟨wire, hwire⟩, hfits, hroom⟩, rfl⟩, ty_interpret ty _,
    unknownFree_interpret ty (Wire.Ty.isFullyKnown_decoded wire json), ?_,
    Wire.Ty.toJson_decoded hmatches, json.roundsTo_rounded⟩
  have htoWire := toWire_interpret hwire hfits (Wire.Ty.keysAscend_decoded wire hkeys)
  rwa [Wire.Value.filled_eq_self htyped] at htoWire

/-- The ports of two hosts as a document: those of one are a number and a null, those of the other
null. -/
def portsDocument (port : Json.Number) : Json :=
  .object [("a", .array [.number port, .null]), ("b", .null)]

/-- The ports of a host are of a custom type, which adds no level.  What comes back holds the
double of the port. -/
theorem ofWireValue_of_ofJson_portsByHost :
    let wire : Wire.Ty := .collection .map (.collection .set (.scalar .number))
    let document := portsDocument (.integer 22 (by decide))
    let rounded := portsDocument (.double (.finite false ⟨0x4036000000000000, by decide⟩) rfl)
    portsByHost.wireTy = .ok wire ∧ document.keysAscend = true ∧ portsByHost.levels ≤ 2 ∧
      ∃ input, Wire.Value.ofJson wire document = .ok input ∧
        ∃ value, portsByHost.ofWireValue input ⟨2⟩ = .ok value ∧ value.ty = portsByHost ∧
          value.unknownFree = true ∧ value.toWire = .ok input ∧
          input.toJson = .ok rounded ∧ document.RoundsTo rounded := by
  intro wire document rounded
  have hkeys : document.keysAscend = true := by decide
  have hlevels : portsByHost.levels ≤ 2 := by decide
  have hnumber : Json.Number.rounded (.integer 22 (by decide)) =
      .double (.finite false ⟨0x4036000000000000, by decide⟩) rfl := by decide +kernel
  have hrounded : document.rounded = rounded := congrArg portsDocument hnumber
  have hpassage :=
    ofWireValue_of_ofJson portsByHost wire document _ ⟨2⟩ rfl hkeys rfl hlevels
  rw [hrounded] at hpassage
  exact ⟨rfl, hkeys, hlevels, _, rfl, hpassage⟩

end Ty

end TypedAttributes.Attribute
