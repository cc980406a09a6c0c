/-
# From wire values to documents and back

A document says neither whether an array was a list or a set nor of which type a `null` is; the type
by which it is decoded says both.  So a value that is checked for a type, has no unknown in it and
holds only finite numbers comes back exactly as it was: with the order and the multiplicity of its
members, its keys, and the sign of every zero.

The induction is on the type.  Its hypothesis is about the values that a parent of that element type
may have as children: nulls of the type, and known values whose payload is accepted for it.
-/
import TypedAttributes.Wire.Json
import TypedAttributes.Proofs.Wire.Checked

namespace TypedAttributes.Wire

namespace Value

/-- Whether every number in a value is finite. -/
def numbersFinite (value : Value) : Bool :=
  value.all fun node =>
    match node.payload? with
    | some (.scalar (.number number)) => number.isFinite
    | _ => true

lemma numbersFinite_of_mem {value child : Value} (h : value.numbersFinite = true)
    (hchild : child ∈ value.children) : child.numbersFinite = true :=
  (all_iff.1 h).2 child hchild

/-- A null of a type, or a known value whose payload is accepted for it. -/
def NullOrChecked (ty : Ty) (value : Value) : Prop :=
  value = .null ty ∨ ∃ payload, value = .known ty payload ∧ payload.check ty = .ok ()

/-- The children of a checked payload that are known are checked for the element type. -/
lemma nullOrChecked_of_mem {shape : Shape} {element : Ty} {payload : Payload}
    (hcheck : payload.check (.collection shape element) = .ok ()) {child : Value}
    (hchild : child ∈ payload.children) (hknown : child.isKnown = true) :
    NullOrChecked element child := by
  obtain ⟨e, he, hty, hinner⟩ := (Payload.check_eq_ok_iff.1 hcheck).2 child hchild
  obtain rfl : element = e := by simpa [Ty.element?] using he
  rcases child with _ | ⟨ty, _ | _ | inner⟩
  · simp [ty?] at hty
  · obtain rfl : ty = element := by simpa [ty?] using hty
    exact Or.inl rfl
  · simp [isKnown, state, State.isUnknown] at hknown
  · obtain rfl : ty = element := by simpa [ty?] using hty
    exact Or.inr ⟨inner, rfl, hinner inner rfl⟩

end Value

/-- The document of a finite scalar is decoded as that scalar. -/
lemma ofJson_scalarToJson {content : Scalar}
    (hfinite : (Value.scalar content).numbersFinite = true) :
    ∃ json, scalarToJson content = .ok json ∧
      Value.ofJson (.scalar content.kind) json = .ok (.scalar content) := by
  cases content with
  | string text => exact ⟨.string text, rfl, rfl⟩
  | bool value => exact ⟨.bool value, rfl, rfl⟩
  | number value =>
    have hvalue : value.isFinite = true := (Value.all_iff.1 hfinite).1
    have hnumber : Json.Number.ofDouble? value = some (.double value hvalue) := by
      simp [Json.Number.ofDouble?, hvalue]
    exact ⟨.number (.double value hvalue), by simp [scalarToJson, hnumber], rfl⟩

/-- If every child of a collection comes back from its document, the collection does. -/
lemma ofJson_payloadToJson {shape : Shape} {element : Ty} {payload : Payload}
    (hkind : payload.kind = .collection shape)
    (hchildren : ∀ child ∈ payload.children,
      ∃ json, child.toJson = .ok json ∧ Value.ofJson element json = .ok child) :
    ∃ json, payload.toJson = .ok json ∧
      Value.ofJson (.collection shape element) json =
        .ok (.known (.collection shape element) payload) := by
  cases shape with
  | list =>
    obtain ⟨items, rfl⟩ : ∃ items, payload = .list items := ⟨_, Payload.eq_list_of_kind hkind⟩
    rw [Payload.children_list] at hchildren
    obtain ⟨docs, hencode, hdecode⟩ := mapM_round_trip hchildren
    refine ⟨.array docs, by simp [Payload.toJson, itemsToJson_eq, hencode], ?_⟩
    simp [Value.ofJson, hdecode]
  | set =>
    obtain ⟨members, rfl⟩ : ∃ members, payload = .set members := ⟨_, Payload.eq_set_of_kind hkind⟩
    rw [Payload.children_set] at hchildren
    obtain ⟨docs, hencode, hdecode⟩ := mapM_round_trip hchildren
    refine ⟨.array docs, by simp [Payload.toJson, itemsToJson_eq, hencode], ?_⟩
    simp [Value.ofJson, hdecode]
  | map =>
    obtain ⟨entries, rfl⟩ : ∃ entries, payload = .map entries := ⟨_, Payload.eq_map_of_kind hkind⟩
    rw [Payload.children_map] at hchildren
    obtain ⟨docs, hencode, hdecode⟩ := Keyed.traverse_round_trip hchildren
    refine ⟨.object docs, by simp [Payload.toJson, entriesToJson_eq, hencode], ?_⟩
    simp [Value.ofJson, hdecode]

/-- What a null or a checked value of a type is encoded as is decoded as that value. -/
lemma ofJson_toJson_of_nullOrChecked (ty : Ty) (value : Value) (hvalue : value.NullOrChecked ty)
    (hknown : value.isFullyKnown = true) (hfinite : value.numbersFinite = true) :
    ∃ json, value.toJson = .ok json ∧ Value.ofJson ty json = .ok value := by
  induction ty generalizing value with
  | scalar kind =>
    rcases hvalue with rfl | ⟨payload, rfl, hcheck⟩
    · exact ⟨.null, rfl, by simp [Value.ofJson]⟩
    · obtain ⟨content, rfl, rfl⟩ :=
        Payload.eq_scalar_of_kind (Payload.check_eq_ok_iff.1 hcheck).1
      exact ofJson_scalarToJson hfinite
  | collection shape element ih =>
    rcases hvalue with rfl | ⟨payload, rfl, hcheck⟩
    · exact ⟨.null, rfl, by simp [Value.ofJson]⟩
    · -- an unknown child would be checked as well; it is ruled out by the value being fully known
      refine ofJson_payloadToJson (Payload.check_eq_ok_iff.1 hcheck).1 fun child hchild => ?_
      have hfull : child.isFullyKnown = true := (Value.isFullyKnown_iff.1 hknown).2 child hchild
      have hkind := Value.nullOrChecked_of_mem hcheck hchild (Value.isFullyKnown_iff.1 hfull).1
      exact ih child hkind hfull (Value.numbersFinite_of_mem hfinite hchild)

/-- A null value, and a known value that is checked for its type, has a document if it is fully
known and all its numbers are finite; decoded as a value of the type, the document gives exactly the
value. -/
theorem ofJson_toJson (ty : Ty) (value : Value)
    (hvalue : value = .null ty ∨ ∃ payload, Value.checked ty payload = .ok value)
    (hknown : value.isFullyKnown = true) (hfinite : value.numbersFinite = true) :
    ∃ json, value.toJson = .ok json ∧ Value.ofJson ty json = .ok value := by
  refine ofJson_toJson_of_nullOrChecked ty value (hvalue.imp_right ?_) hknown hfinite
  rintro ⟨payload, hchecked⟩
  obtain ⟨hcheck, rfl⟩ := Value.checked_eq_ok_iff.1 hchecked
  exact ⟨payload, rfl, hcheck⟩

/-- Sets of numbers by name: one holds negative zero twice and a null, another is null itself. -/
def Payload.samples : Payload :=
  .map [("cold", .set (.scalar .number)
      [.scalar (.number (.ofRank true 0)), .null (.scalar .number),
        .scalar (.number (.ofRank true 0))]),
    ("dry", .null (.collection .set (.scalar .number)))]

theorem ofJson_toJson_samples :
    let ty : Ty := .collection .map (.collection .set (.scalar .number))
    Value.checked ty Payload.samples = .ok (.known ty Payload.samples) ∧
      ∃ json, (Value.known ty Payload.samples).toJson = .ok json ∧
        Value.ofJson ty json = .ok (.known ty Payload.samples) :=
  ⟨rfl, ofJson_toJson _ _ (Or.inr ⟨Payload.samples, rfl⟩) (by decide) (by decide)⟩

end TypedAttributes.Wire
