/-
# Conversion of equal values

Wire values and typed values are compared by two equalities that were defined apart.  Both pair the
members of sets by matching, but what is matched differs: wire values with their declared types on
the one side, the typed values made of them on the other.

Conversion takes the one equality to the other.  Of two equal wire values it accepts both or
neither, since what it asks for is a matter of their form, and what it makes of them is equal.  The
other way round, values that convert to equal typed values were equal already, provided that every
node of them declares a type: a node without one is converted to the same null as a null is, but it
equals no null.

Members of sets are listed in any order on either side, so the children that correspond to each
other need not be converted at the same point of the two runs.  The argument is about `Ty.interpret`
for this reason, which knows no order of execution, and each shape takes a lemma on how its children
are compared.
-/
import TypedAttributes.Proofs.Attribute.DecodeEncode
import TypedAttributes.Proofs.Attribute.EqualityLaws

namespace TypedAttributes.Attribute

variable {ρ : Type}

namespace Ty

variable {shape : Shape} {element : Ty ρ} {read : Wire.Value → Value ρ} {p q : Wire.Payload}

/-! ## Collections -/

/-- Collections made of equal payloads are equal, if what is made of equal children is equal. -/
lemma equal_collected (hcomplete : element.isComplete = true) (hp : p.kind = .collection shape)
    (hread : ∀ x ∈ p.children, ∀ y ∈ q.children, x.equal y = true → (read x).equal (read y) = true)
    (h : p.equal q = true) :
    (collected shape element read p).equal (collected shape element read q) = true := by
  have hq : q.kind = .collection shape := (Wire.Payload.exists_perm_of_equal h).1 ▸ hp
  have helement : elementsEqual (some element) (some element) = true :=
    (equal_self element).trans hcomplete
  cases shape with
  | list =>
    rw [Wire.Payload.eq_list_of_kind hp, Wire.Payload.eq_list_of_kind hq, Wire.Payload.equal_list,
      isEqv_iff_forall₂] at h
    rw [collected, collected, Value.equal_list_known_iff, List.forall₂_map_left_iff,
      List.forall₂_map_right_iff]
    exact ⟨helement, forall₂_imp_of_mem h hread⟩
  | map =>
    rw [Wire.Payload.eq_map_of_kind hp, Wire.Payload.eq_map_of_kind hq, Wire.Payload.equal_map,
      isEqv_iff_forall₂] at h
    rw [collected, collected, Value.equal_map_known, Bool.and_eq_true, entriesEqual_eq_matched]
    refine ⟨helement, matched_of_forall₂ ?_⟩
    rw [Keyed.mapValues, Keyed.mapValues, List.forall₂_map_left_iff, List.forall₂_map_right_iff]
    refine forall₂_imp_of_mem h fun x hx y hy hxy => ?_
    rw [Bool.and_eq_true] at hxy
    rw [entryEqual, Bool.and_eq_true]
    exact ⟨hxy.1, hread _ (Wire.Payload.mem_children_of_mem_entries hx) _
      (Wire.Payload.mem_children_of_mem_entries hy) hxy.2⟩
  | set =>
    rw [Wire.Payload.eq_set_of_kind hp, Wire.Payload.eq_set_of_kind hq, Wire.Payload.equal_set] at h
    rw [collected, collected, Value.equal_set_known, Bool.and_eq_true, membersEqual_eq_matched,
      matched_map]
    exact ⟨helement, matched_mono (fun x _ => (read x).partialEquivAt_equal.comap) hread h⟩

/-- Payloads of which equal collections are made are equal, if children of which equal values are
made are. -/
lemma equal_of_equal_collected (hp : p.kind = .collection shape) (hq : q.kind = .collection shape)
    (hpkeys : Keyed.Ascending p.entries) (hqkeys : Keyed.Ascending q.entries)
    (hread : ∀ x ∈ p.children, ∀ y ∈ q.children, (read x).equal (read y) = true → x.equal y = true)
    (h : (collected shape element read p).equal (collected shape element read q) = true) :
    p.equal q = true := by
  cases shape with
  | list =>
    rw [collected, collected, Value.equal_list_known_iff, List.forall₂_map_left_iff,
      List.forall₂_map_right_iff] at h
    rw [Wire.Payload.eq_list_of_kind hp, Wire.Payload.eq_list_of_kind hq, Wire.Payload.equal_list,
      isEqv_iff_forall₂]
    exact forall₂_imp_of_mem h.2 hread
  | map =>
    rw [collected, collected, Value.equal_map_known, Bool.and_eq_true] at h
    obtain ⟨arranged, hperm, harranged⟩ := exists_perm_of_entriesEqual h.2
    -- both sides ascend, so the rearrangement has moved nothing
    have hkeys : Keyed.keys (Keyed.mapValues read p.entries) = Keyed.keys arranged :=
      Keyed.keys_eq_iff.2 (harranged.imp fun _ _ hxy => hxy.1)
    have hascending : Keyed.Ascending arranged := by
      rwa [Keyed.Ascending, ← hkeys, Keyed.keys_mapValues]
    have hascending' : Keyed.Ascending (Keyed.mapValues read q.entries) := by
      rwa [Keyed.Ascending, Keyed.keys_mapValues]
    obtain rfl := Keyed.eq_of_perm_of_ascending hperm hascending hascending'
    rw [Keyed.mapValues, Keyed.mapValues, List.forall₂_map_left_iff, List.forall₂_map_right_iff]
      at harranged
    rw [Wire.Payload.eq_map_of_kind hp, Wire.Payload.eq_map_of_kind hq, Wire.Payload.equal_map,
      isEqv_iff_forall₂]
    refine forall₂_imp_of_mem harranged fun x hx y hy hxy => ?_
    rw [Bool.and_eq_true, beq_iff_eq]
    exact ⟨hxy.1, hread _ (Wire.Payload.mem_children_of_mem_entries hx) _
      (Wire.Payload.mem_children_of_mem_entries hy) hxy.2⟩
  | set =>
    rw [collected, collected, Value.equal_set_known, Bool.and_eq_true, membersEqual_eq_matched,
      matched_map] at h
    rw [Wire.Payload.eq_set_of_kind hp, Wire.Payload.eq_set_of_kind hq, Wire.Payload.equal_set]
    exact matched_mono (fun x _ => x.partialEquivAt_equal) hread h.2

/-! ## Scalars -/

/-- The state of a value that fits a scalar type is a state of the content of such scalars. -/
lemma exists_state_of_fits_scalar {kind : Scalar.Kind} {declared : Wire.Ty}
    {state : State Wire.Payload} (h : (Ty.scalar kind : Ty ρ).fits (.typed declared state) = true) :
    ∃ content : State kind.Content, scalarState kind state = content ∧
      state = content.map fun c => .scalar (kind.wrap c) := by
  rcases state with _ | _ | payload
  · exact ⟨.null, rfl, rfl⟩
  · exact ⟨.unknown, rfl, rfl⟩
  · obtain ⟨content, rfl⟩ := kind_scalar_iff.1 ((fits_scalar_iff.1 h).2 payload rfl)
    exact ⟨.known content, scalarState_wrap content, rfl⟩

/-- Values that fit a scalar type are equal exactly when the typed values that they stand for
are. -/
lemma equal_interpret_scalar {kind : Scalar.Kind} {s t : Wire.Ty}
    {state state' : State Wire.Payload}
    (ha : (Ty.scalar kind : Ty ρ).fits (.typed s state) = true)
    (hb : (Ty.scalar kind : Ty ρ).fits (.typed t state') = true) :
    ((Ty.scalar kind : Ty ρ).interpret (.typed s state)).equal
      ((Ty.scalar kind).interpret (.typed t state')) =
      (Wire.Value.typed s state).equal (.typed t state') := by
  obtain ⟨rfl, -⟩ := fits_scalar_iff.1 ha
  obtain ⟨rfl, -⟩ := fits_scalar_iff.1 hb
  obtain ⟨a, hstate, rfl⟩ := exists_state_of_fits_scalar ha
  obtain ⟨b, hstate', rfl⟩ := exists_state_of_fits_scalar hb
  rw [interpret, interpret, Wire.Value.state, Wire.Value.state, hstate, hstate', Value.equal_scalar,
    Wire.Value.equal_eq]
  cases a <;> cases b <;>
    simp [Wire.Value.ty?, Wire.Value.state, State.map, State.equal, Wire.Payload.equal]

/-! ## All types -/

/-- What a value that is not known stands for is equal to itself. -/
lemma equal_interpret_self {ty : Ty ρ} (hcomplete : ty.isComplete = true) {input : Wire.Value}
    (h : input.payload? = none) : (ty.interpret input).equal (ty.interpret input) = true := by
  induction ty with
  | scalar kind =>
    rcases input with _ | ⟨declared, _ | _ | payload⟩
    · simp [interpret, Wire.Value.state, scalarState, Value.equal_scalar, State.map, State.equal]
    · simp [interpret, Wire.Value.state, scalarState, Value.equal_scalar, State.map, State.equal]
    · simp [interpret, Wire.Value.state, scalarState, Value.equal_scalar, State.map, State.equal]
    · cases h
  | collection shape element =>
    have helement : elementsEqual (some element) (some element) = true :=
      (equal_self element).trans hcomplete
    rcases input with _ | ⟨declared, _ | _ | payload⟩
    · exact (Value.equal_nullCollection shape _ _).trans helement
    · exact (Value.equal_nullCollection shape _ _).trans helement
    · exact (Value.equal_unknownCollection shape _ _).trans helement
    · cases h
  | bare shape => cases hcomplete
  | custom name base validation ih =>
    rw [interpret, Value.equal, Bool.and_eq_true, Bool.and_eq_true, beq_self_eq_true]
    exact ⟨⟨rfl, (equal_self base).trans hcomplete⟩, ih hcomplete⟩

/-- Equal wire values stand for equal typed values. -/
lemma equal_interpret {ty : Ty ρ} (hcomplete : ty.isComplete = true) {a b : Wire.Value}
    (hfits : ty.fits a = true) (h : a.equal b = true) :
    (ty.interpret a).equal (ty.interpret b) = true := by
  have hfits' : ty.fits b = true := (fits_iff_of_sameForm (Wire.Value.sameForm_of_equal h)).1 hfits
  induction ty generalizing a b with
  | scalar kind =>
    obtain ⟨rfl, ha⟩ | ⟨declared, p, q, rfl, rfl, -⟩ := Wire.Value.equal_cases h
    · exact equal_interpret_self hcomplete ha
    · exact (equal_interpret_scalar hfits hfits').trans h
  | collection shape element ih =>
    obtain ⟨rfl, ha⟩ | ⟨declared, p, q, rfl, rfl, hpq⟩ := Wire.Value.equal_cases h
    · exact equal_interpret_self hcomplete ha
    · obtain ⟨hp, hchildren⟩ := (fits_collection_iff.1 hfits).2 p rfl
      obtain ⟨-, hchildren'⟩ := (fits_collection_iff.1 hfits').2 q rfl
      refine equal_collected hcomplete hp (fun x hx y hy hxy => ?_) hpq
      exact ih hcomplete (hchildren x hx) hxy (hchildren' y hy)
  | bare shape => cases hcomplete
  | custom name base validation ih =>
    rw [fits_custom] at hfits hfits'
    rw [interpret, interpret, Value.equal, Bool.and_eq_true, Bool.and_eq_true, beq_self_eq_true]
    exact ⟨⟨rfl, (equal_self base).trans hcomplete⟩, ih hcomplete hfits h hfits'⟩

/-- Wire values that stand for equal typed values are equal, if every node of them declares a
type. -/
lemma equal_of_equal_interpret {ty : Ty ρ} {a b : Wire.Value} (ha : ty.fits a = true)
    (hb : ty.fits b = true) (hatyped : a.fullyTyped = true) (hbtyped : b.fullyTyped = true)
    (hakeys : a.keysAscend = true) (hbkeys : b.keysAscend = true)
    (h : (ty.interpret a).equal (ty.interpret b) = true) : a.equal b = true := by
  induction ty generalizing a b with
  | scalar kind =>
    rcases a with _ | ⟨s, state⟩
    · cases hatyped
    rcases b with _ | ⟨t, state'⟩
    · cases hbtyped
    rwa [equal_interpret_scalar ha hb] at h
  | collection shape element ih =>
    rcases a with _ | ⟨s, state⟩
    · cases hatyped
    rcases b with _ | ⟨t, state'⟩
    · cases hbtyped
    -- both declare the wire type of the type, so that only the states are left to compare
    obtain rfl : s = t := Except.ok.inj ((wireTy_of_fits ha).symm.trans (wireTy_of_fits hb))
    rcases state with _ | _ | p <;> rcases state' with _ | _ | q
    case known.known =>
      obtain ⟨hp, hpfits⟩ := (fits_collection_iff.1 ha).2 p rfl
      obtain ⟨hq, hqfits⟩ := (fits_collection_iff.1 hb).2 q rfl
      rw [Wire.Value.equal, Bool.and_eq_true, beq_self_eq_true]
      refine ⟨rfl, equal_of_equal_collected hp hq (ascending_of_keysAscend hakeys)
        (ascending_of_keysAscend hbkeys) (fun x hx y hy hxy => ?_) h⟩
      exact ih (hpfits x hx) (hqfits y hy) ((Wire.Value.all_iff.1 hatyped).2 x hx)
        ((Wire.Value.all_iff.1 hbtyped).2 y hy) ((Wire.Value.all_iff.1 hakeys).2 x hx)
        ((Wire.Value.all_iff.1 hbkeys).2 y hy) hxy
    case null.null => exact beq_self_eq_true s
    case unknown.unknown => exact beq_self_eq_true s
    all_goals cases shape <;> cases h
  | bare shape =>
    rcases a with _ | ⟨s, state⟩
    · cases hatyped
    · cases ha
  | custom name base validation ih =>
    rw [fits_custom] at ha hb
    rw [interpret, interpret, Value.equal, Bool.and_eq_true] at h
    exact ih ha hb hatyped hbtyped hakeys hbkeys h.2

/-- Of two equal wire values both are converted or neither, and then to equal typed values.  And
wire values in which every node declares a type are equal if they are converted to equal typed
values, be it under different limits. -/
theorem ofWireValue_preserves_reflects_equal (ty : Ty ρ) (limits : Limits) (a b : Wire.Value) :
    (a.equal b = true →
      ((∃ value, ty.ofWireValue a limits = .ok value) ↔
        ∃ value, ty.ofWireValue b limits = .ok value) ∧
        ∀ v w, ty.ofWireValue a limits = .ok v → ty.ofWireValue b limits = .ok w →
          v.equal w = true) ∧
      ∀ limits' v w, ty.ofWireValue a limits = .ok v → ty.ofWireValue b limits' = .ok w →
        v.equal w = true → a.fullyTyped = true → b.fullyTyped = true → a.keysAscend = true →
          b.keysAscend = true → a.equal b = true := by
  constructor
  · intro hab
    refine ⟨convert_isOk_iff_of_sameForm (Wire.Value.sameForm_of_equal hab) (.start limits), ?_⟩
    intro v w hv hw
    obtain ⟨⟨hcomplete, hfits, -⟩, rfl⟩ := convert_eq_ok_iff.1 hv
    obtain ⟨-, rfl⟩ := convert_eq_ok_iff.1 hw
    exact equal_interpret hcomplete hfits hab
  · intro limits' v w hv hw hvw hatyped hbtyped hakeys hbkeys
    obtain ⟨⟨-, ha, -⟩, rfl⟩ := convert_eq_ok_iff.1 hv
    obtain ⟨⟨-, hb, -⟩, rfl⟩ := convert_eq_ok_iff.1 hw
    exact equal_of_equal_interpret ha hb hatyped hbtyped hakeys hbkeys hvw

/-- Two hosts, one of them without ports and one with the given ports. -/
def portsOfHost (ports : List Double) : Wire.Value :=
  .known (.collection .map (.collection .set (.scalar .number)))
    (.map [("a", .null (.collection .set (.scalar .number))),
      ("b", .set (.scalar .number) (ports.map fun port => .scalar (.number port)))])

/-- The same ports listed in another order, and with the other zero, are equal on the wire and as
typed values. -/
theorem ofWireValue_preserves_reflects_equal_ports :
    let a := portsOfHost [.ofRank false 0, .infinite false, .ofRank false 1]
    let b := portsOfHost [.infinite false, .ofRank false 1, .ofRank true 0]
    a.equal b = true ∧ a.fullyTyped = true ∧ b.fullyTyped = true ∧ a.keysAscend = true ∧
      b.keysAscend = true ∧ ∃ v w, portsByHost.ofWireValue a ⟨2⟩ = .ok v ∧
        portsByHost.ofWireValue b ⟨2⟩ = .ok w ∧ v.equal w = true := by
  intro a b
  have hab : a.equal b = true := by decide
  have ha : portsByHost.ofWireValue a ⟨2⟩ = .ok (portsByHost.interpret a) := rfl
  have hb : portsByHost.ofWireValue b ⟨2⟩ = .ok (portsByHost.interpret b) := rfl
  obtain ⟨hpreserves, hreflects⟩ := ofWireValue_preserves_reflects_equal portsByHost ⟨2⟩ a b
  have hequal := (hpreserves hab).2 _ _ ha hb
  exact ⟨hreflects ⟨2⟩ _ _ ha hb hequal (by decide) (by decide) (by decide) (by decide), by decide,
    by decide, by decide, by decide, _, _, ha, hb, hequal⟩

end Ty

end TypedAttributes.Attribute
