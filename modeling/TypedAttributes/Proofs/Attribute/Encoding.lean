/-
# Encoding collections, shape by shape

A collection that has a wire type is encoded as a wire value of that type in the same state.  The
children of the encoding are the encodings of its elements, and those of a map are put in key order.
-/
import TypedAttributes.Attribute.Encode
import TypedAttributes.Proofs.Traversal

namespace TypedAttributes.Attribute

variable {ρ : Type}

lemma toWire_list_known {element : Option (Ty ρ)} {wire : Wire.Ty} {items : List (Value ρ)}
    {encoded : List Wire.Value} (hwire : (Ty.ofElement .list element).wireTy = .ok wire)
    (hitems : List.Forall₂ (fun item w => item.toWire = .ok w) items encoded) :
    (Value.list element (.known items)).toWire = .ok (.known wire (.list encoded)) := by
  rw [Value.toWire, hwire, itemsToWire_eq, mapM_eq_ok_iff.2 hitems]
  rfl

lemma toWire_set_known {element : Option (Ty ρ)} {wire : Wire.Ty} {members : List (Value ρ)}
    {encoded : List Wire.Value} (hwire : (Ty.ofElement .set element).wireTy = .ok wire)
    (hmembers : List.Forall₂ (fun member w => member.toWire = .ok w) members encoded) :
    (Value.set element (.known members)).toWire = .ok (.known wire (.set encoded)) := by
  rw [Value.toWire, hwire, itemsToWire_eq, mapM_eq_ok_iff.2 hmembers]
  rfl

lemma toWire_map_known {element : Option (Ty ρ)} {wire : Wire.Ty}
    {entries : List (String × Value ρ)} {encoded : List (String × Wire.Value)}
    (hwire : (Ty.ofElement .map element).wireTy = .ok wire)
    (hentries : List.Forall₂ (fun entry w => entry.1 = w.1 ∧ entry.2.toWire = .ok w.2)
      entries encoded) :
    (Value.map element (.known entries)).toWire = .ok (.known wire (.ofEntries encoded)) := by
  rw [Value.toWire, hwire, entriesToWire_eq, Keyed.traverse_eq_ok_iff.2 hentries]
  rfl

lemma toWire_nullCollection {shape : Shape} {element : Option (Ty ρ)} {wire : Wire.Ty}
    (hwire : (Ty.ofElement shape element).wireTy = .ok wire) :
    (Value.nullCollection shape element).toWire = .ok (.null wire) := by
  cases shape <;> rw [Value.nullCollection, Value.toWire, hwire] <;> rfl

lemma toWire_unknownCollection {shape : Shape} {element : Option (Ty ρ)} {wire : Wire.Ty}
    (hwire : (Ty.ofElement shape element).wireTy = .ok wire) :
    (Value.unknownCollection shape element).toWire = .ok (.unknown wire) := by
  cases shape <;> rw [Value.unknownCollection, Value.toWire, hwire] <;> rfl

end TypedAttributes.Attribute
