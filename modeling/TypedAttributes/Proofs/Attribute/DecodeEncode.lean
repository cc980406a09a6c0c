/-
# Converting and encoding again

A typed value that was converted from a wire value is encoded as that wire value with its missing
types filled in: it holds nothing that the wire value did not, and has lost nothing but the
difference between a node without a type and a null.  In particular no member of a list or set is
moved, merged or dropped, and custom types leave no trace.

Maps are sorted by key when they are encoded.  Those of a wire value are in that order already, so
nothing moves there either; this is the one place where it matters that keys ascend.
-/
import TypedAttributes.Proofs.KeyOrder
import TypedAttributes.Proofs.Attribute.Conversion
import TypedAttributes.Proofs.Attribute.Encoding
import TypedAttributes.Proofs.Wire.Filled

namespace TypedAttributes.Attribute

variable {ρ : Type}

/-- A collection made of the children of a payload is encoded as that payload, child by child. -/
lemma toWire_collected {shape : Shape} {element : Ty ρ} {wire : Wire.Ty} {payload : Wire.Payload}
    {read : Wire.Value → Value ρ} {fill : Wire.Value → Wire.Value}
    (hwire : (Ty.collection shape element).wireTy = .ok wire)
    (hkind : payload.kind = .collection shape)
    (hkeys : Keyed.Ascending payload.entries)
    (hchildren : ∀ child ∈ payload.children, (read child).toWire = .ok (fill child)) :
    (Ty.collected shape element read payload).toWire =
      .ok (.known wire (payload.mapChildren fill)) := by
  have htype : (Ty.ofElement shape (some element)).wireTy = .ok wire := hwire
  have hmap : List.Forall₂ (fun value w => value.toWire = .ok w)
      (payload.children.map read) (payload.children.map fill) := by
    rw [List.forall₂_map_left_iff, List.forall₂_map_right_iff, List.forall₂_same]
    exact hchildren
  cases shape with
  | list =>
    rw [Ty.collected, toWire_list_known htype hmap, Wire.Payload.eq_list_of_kind hkind]
    rfl
  | map =>
    have hentries : List.Forall₂ (fun (entry : String × Value ρ) w =>
        entry.1 = w.1 ∧ entry.2.toWire = .ok w.2)
        (Keyed.mapValues read payload.entries) (Keyed.mapValues fill payload.entries) := by
      rw [Keyed.mapValues, Keyed.mapValues, List.forall₂_map_left_iff, List.forall₂_map_right_iff,
        List.forall₂_same]
      intro entry hentry
      refine ⟨rfl, hchildren entry.2 ?_⟩
      rw [← Wire.Payload.map_snd_entries hkind]
      exact List.mem_map_of_mem hentry
    have hfilled : Keyed.Ascending (Keyed.mapValues fill payload.entries) := by
      rwa [Keyed.Ascending, Keyed.keys_mapValues]
    rw [Ty.collected, toWire_map_known htype hentries, Wire.Payload.ofEntries,
      Keyed.ofEntries_of_ascending hfilled, Wire.Payload.eq_map_of_kind hkind]
    rfl
  | set =>
    rw [Ty.collected, toWire_set_known htype hmap, Wire.Payload.eq_set_of_kind hkind]
    rfl

lemma ascending_of_keysAscend {wire : Wire.Ty} {payload : Wire.Payload}
    (h : (Wire.Value.known wire payload).keysAscend = true) : Keyed.Ascending payload.entries := by
  have hnode := (Wire.Value.all_iff.1 h).1
  cases payload with
  | map entries => simpa [Wire.Value.known, Wire.Value.payload?, Wire.Value.state, State.known?,
      Wire.Payload.entries] using hnode
  | _ => simp [Wire.Payload.entries, Keyed.Ascending, Keyed.keys]

/-- The interpretation of a value that fits is encoded as the value with its missing types filled
in. -/
lemma toWire_interpret {ty : Ty ρ} {wire : Wire.Ty} {input : Wire.Value}
    (hwire : ty.wireTy = .ok wire) (hfits : ty.fits input = true)
    (hkeys : input.keysAscend = true) : (ty.interpret input).toWire = .ok (input.filled wire) := by
  induction ty generalizing wire input with
  | scalar kind =>
    cases hwire
    rcases input with _ | ⟨declared, state⟩
    · rfl
    · obtain ⟨rfl, hpayload⟩ := Ty.fits_scalar_iff.1 hfits
      rcases state with _ | _ | payload
      · rfl
      · rfl
      · obtain ⟨content, rfl⟩ := Ty.kind_scalar_iff.1 (hpayload payload rfl)
        rw [Ty.interpret, Wire.Value.state, Ty.scalarState_wrap]
        rfl
  | collection shape element ih =>
    obtain ⟨e, he, rfl⟩ := Ty.wireTy_collection_eq_ok_iff.1 hwire
    rcases input with _ | ⟨declared, state⟩
    · exact toWire_nullCollection hwire
    · obtain ⟨hdeclared, hpayload⟩ := Ty.fits_collection_iff.1 hfits
      -- a type has one wire type, so the declared one is the one that the encoding will have
      obtain rfl : declared = .collection shape e := Except.ok.inj (hdeclared.symm.trans hwire)
      rcases state with _ | _ | payload
      · exact toWire_nullCollection hwire
      · exact toWire_unknownCollection hwire
      · obtain ⟨hkind, hchildren⟩ := hpayload payload rfl
        refine toWire_collected hwire hkind (ascending_of_keysAscend hkeys) fun child hchild => ?_
        exact ih he (hchildren child hchild) ((Wire.Value.all_iff.1 hkeys).2 child hchild)
  | bare shape => cases hwire
  | custom name base validation ih =>
    rw [Ty.fits_custom] at hfits
    exact ih hwire hfits hkeys

/-- A converted value has exactly the type by which it was converted, and is encoded as the wire
value that it was converted from, with every node without a type replaced by the null of the wire
type expected in its place. -/
theorem toWire_of_ofWireValue (ty : Ty ρ) (input : Wire.Value) (limits : Limits) (value : Value ρ)
    (hkeys : input.keysAscend = true) (h : ty.ofWireValue input limits = .ok value) :
    value.ty = ty ∧
      ∃ wire, ty.wireTy = .ok wire ∧ value.toWire = .ok (input.filled wire) := by
  obtain ⟨⟨hcomplete, hfits, -⟩, rfl⟩ := Ty.convert_eq_ok_iff.1 h
  obtain ⟨wire, hwire⟩ := Ty.isComplete_iff.1 hcomplete
  exact ⟨Ty.ty_interpret ty input, wire, hwire, toWire_interpret hwire hfits hkeys⟩

/-- Port numbers by host, the ports of a host being a custom type. -/
def Ty.portsByHost : Ty Empty :=
  .collection .map (.custom "Ports" (.collection .set (.scalar .number)) .none)

/-- Two hosts: the ports of one are a node without a type, those of the other hold one, a null and a
number that is none. -/
def someHosts : Wire.Value :=
  .known (.collection .map (.collection .set (.scalar .number)))
    (.map [("a", .untyped),
      ("b", .set (.scalar .number) [.scalar (.number .nan), .untyped, .null (.scalar .number)])])

theorem toWire_of_ofWireValue_someHosts :
    someHosts.keysAscend = true ∧ ∃ value, Ty.portsByHost.ofWireValue someHosts ⟨2⟩ = .ok value ∧
      value.ty = Ty.portsByHost ∧
      ∃ wire, Ty.portsByHost.wireTy = .ok wire ∧ value.toWire = .ok (someHosts.filled wire) :=
  ⟨by decide, _, rfl, toWire_of_ofWireValue Ty.portsByHost someHosts ⟨2⟩ _ (by decide) rfl⟩

end TypedAttributes.Attribute
