/-
# Decoding documents by type

Which documents are of a type is said by `Ty.Matches`, kind by kind and without building a value.
They are the documents that are decoded, and `Ty.decoded` is the value that each of them stands for:
every node of it declares its type and is null or known, its payload is accepted for the type, and
it is encoded as the document with its numbers rounded to doubles.

Any other document is refused for one of its parts.  `Ty.parts` lists the parts of a document in the
order in which they are written, each with the type that is expected of it; the part that is refused
is the first that is not of the kind of its type.
-/
import TypedAttributes.Proofs.Json.Tree
import TypedAttributes.Proofs.Wire.JsonRoundTrip

namespace TypedAttributes

/-- Whether a document is null or of a kind, whatever is inside of it. -/
def Json.isOf : Wire.Kind → Json → Bool
  | _, .null => true
  | .scalar .string, .string _ => true
  | .scalar .number, .number _ => true
  | .scalar .bool, .bool _ => true
  | .collection .list, .array _ => true
  | .collection .set, .array _ => true
  | .collection .map, .object _ => true
  | _, _ => false

namespace Wire

namespace Ty

/-- Whether a document is of a type. -/
inductive Matches : Ty → Json → Prop
  /-- Null is of every type. -/
  | null (ty : Ty) : Matches ty .null
  | string (text : String) : Matches (.scalar .string) (.string text)
  | number (value : Json.Number) : Matches (.scalar .number) (.number value)
  | bool (value : Bool) : Matches (.scalar .bool) (.bool value)
  | list {element : Ty} {items : List Json} (h : ∀ item ∈ items, Matches element item) :
      Matches (.collection .list element) (.array items)
  | set {element : Ty} {items : List Json} (h : ∀ item ∈ items, Matches element item) :
      Matches (.collection .set element) (.array items)
  | map {element : Ty} {entries : List (String × Json)}
      (h : ∀ value ∈ entries.map Prod.snd, Matches element value) :
      Matches (.collection .map element) (.object entries)

/-- The parts of a document, each with the type that is expected of it, in the order in which they
are written: a whole comes before what is in it. -/
def parts : Ty → Json → List (Ty × Json)
  | .scalar kind, json => [(.scalar kind, json)]
  | .collection shape element, json =>
    (.collection shape element, json) :: json.children.flatMap element.parts

/-- Whether a part is not of the kind of the type that is expected of it. -/
def misfits (part : Ty × Json) : Bool := !part.2.isOf part.1.kind

/-- The value that a document of a type stands for. -/
def decoded : Ty → Json → Value
  | .scalar kind, .string text => .known (.scalar kind) (.scalar (.string text))
  | .scalar kind, .number value => .known (.scalar kind) (.scalar (.number value.toDouble))
  | .scalar kind, .bool value => .known (.scalar kind) (.scalar (.bool value))
  | .collection .list element, .array items => .list element (items.map element.decoded)
  | .collection .set element, .array items => .set element (items.map element.decoded)
  | .collection .map element, .object entries =>
    .known (.collection .map element) (.map (Keyed.mapValues element.decoded entries))
  | ty, _ => .null ty

/-! ## Documents of a type -/

lemma matches_scalar_iff {kind : Scalar.Kind} {json : Json} :
    (scalar kind).Matches json ↔ json.isOf (.scalar kind) = true := by
  constructor
  · rintro (_ | _ | _ | _) <;> simp [Json.isOf]
  · intro h
    cases kind <;> cases json <;> first | constructor | cases h

/-- A document is of a collection type when it is of the kind and its children are of the element
type. -/
lemma matches_collection_iff {shape : Shape} {element : Ty} {json : Json} :
    (collection shape element).Matches json ↔
      json.isOf (.collection shape) = true ∧ ∀ child ∈ json.children, element.Matches child := by
  constructor
  · rintro (_ | _ | _ | _ | h | h | h)
    · exact ⟨by cases shape <;> rfl, nofun⟩
    · exact ⟨rfl, h⟩
    · exact ⟨rfl, h⟩
    · exact ⟨rfl, h⟩
  · rintro ⟨hkind, hchildren⟩
    cases json with
    | null => exact .null _
    | array items =>
      cases shape with
      | list => exact .list hchildren
      | set => exact .set hchildren
      | map => exact nomatch hkind
    | object entries =>
      cases shape with
      | map => exact .map hchildren
      | list => exact nomatch hkind
      | set => exact nomatch hkind
    | _ => cases shape <;> exact nomatch hkind

/-- A document of a type has no part that misfits. -/
lemma misfits_of_matches {ty : Ty} {json : Json} (h : ty.Matches json) {part : Ty × Json}
    (hpart : part ∈ ty.parts json) : misfits part = false := by
  induction ty generalizing json with
  | scalar kind =>
    obtain rfl := List.mem_singleton.1 hpart
    simp [misfits, Ty.kind, matches_scalar_iff.1 h]
  | collection shape element ih =>
    obtain ⟨hkind, hchildren⟩ := matches_collection_iff.1 h
    rcases List.mem_cons.1 hpart with rfl | hpart
    · simp [misfits, Ty.kind, hkind]
    · obtain ⟨child, hchild, hpart⟩ := List.mem_flatMap.1 hpart
      exact ih (hchildren child hchild) hpart

/-! ## The decoded value -/

@[simp] lemma decoded_null (ty : Ty) : ty.decoded .null = .null ty := by
  rcases ty with kind | ⟨shape, element⟩
  · rfl
  · cases shape <;> rfl

lemma ty?_decoded (ty : Ty) (json : Json) : (ty.decoded json).ty? = some ty := by
  fun_cases decoded <;> rfl

lemma children_decoded {shape : Shape} {element : Ty} {json : Json} {child : Value}
    (h : child ∈ ((collection shape element).decoded json).children) :
    ∃ part ∈ json.children, element.decoded part = child := by
  cases shape with
  | list =>
    cases json with
    | array items => exact List.mem_map.1 h
    | _ => cases h
  | set =>
    cases json with
    | array items => exact List.mem_map.1 h
    | _ => cases h
  | map =>
    cases json with
    | object entries =>
      obtain ⟨entry, hentry, rfl⟩ := List.mem_map.1 h
      obtain ⟨written, hwritten, rfl⟩ := List.mem_map.1 hentry
      exact ⟨written.2, List.mem_map_of_mem hwritten, rfl⟩
    | _ => cases h

/-- What holds of every decoded value holds of everything in one. -/
lemma all_decoded {test : Value → Bool} (h : ∀ ty json, test (decoded ty json) = true) (ty : Ty)
    (json : Json) : (ty.decoded json).all test = true := by
  induction ty generalizing json with
  | scalar kind =>
    refine Value.all_iff.2 ⟨h _ _, ?_⟩
    cases json <;> exact nofun
  | collection shape element ih =>
    refine Value.all_iff.2 ⟨h _ _, fun child hchild => ?_⟩
    obtain ⟨part, -, rfl⟩ := children_decoded hchild
    exact ih part

lemma isFullyKnown_decoded (ty : Ty) (json : Json) : (ty.decoded json).isFullyKnown = true :=
  all_decoded (fun ty json => by fun_cases decoded <;> rfl) ty json

lemma fullyTyped_decoded (ty : Ty) (json : Json) : (ty.decoded json).fullyTyped = true :=
  all_decoded (fun ty json => by rw [ty?_decoded, Option.isSome_some]) ty json

lemma numbersFinite_decoded (ty : Ty) (json : Json) : (ty.decoded json).numbersFinite = true :=
  all_decoded (fun ty json => by
    fun_cases decoded
    case case2 kind value => exact value.isFinite_toDouble
    all_goals rfl) ty json

/-- Where the keys ascend in a document, they do in the value that it stands for. -/
lemma keysAscend_decoded (ty : Ty) {json : Json} (h : json.keysAscend = true) :
    (ty.decoded json).keysAscend = true := by
  induction ty generalizing json with
  | scalar kind =>
    refine Value.all_iff.2 ⟨by cases json <;> rfl, ?_⟩
    cases json <;> exact nofun
  | collection shape element ih =>
    refine Value.all_iff.2 ⟨?_, fun child hchild => ?_⟩
    · cases json with
      | object entries =>
        cases shape with
        | map =>
          refine decide_eq_true ?_
          rw [Keyed.Ascending, Keyed.keys_mapValues]
          exact (Json.keysAscend_object_iff.1 h).1
        | _ => rfl
      | _ => cases shape <;> rfl
    · obtain ⟨part, hpart, rfl⟩ := children_decoded hchild
      exact ih (Json.keysAscend_of_mem h hpart)

lemma kind_decoded {ty : Ty} {json : Json} (h : ty.Matches json) {payload : Payload}
    (hpayload : (ty.decoded json).payload? = some payload) : payload.kind = ty.kind := by
  cases h with
  | null =>
    rw [decoded_null] at hpayload
    cases hpayload
  | _ =>
    cases hpayload
    rfl

/-- The payload that a document of a type is decoded to is accepted for the type. -/
lemma check_decoded {ty : Ty} {json : Json} (h : ty.Matches json) {payload : Payload}
    (hpayload : (ty.decoded json).payload? = some payload) : payload.check ty = .ok () := by
  have hkind := kind_decoded h hpayload
  induction ty generalizing json payload with
  | scalar kind =>
    obtain ⟨content, rfl, -⟩ := Payload.eq_scalar_of_kind hkind
    exact Payload.check_eq_ok_iff.2 ⟨hkind, nofun⟩
  | collection shape element ih =>
    refine Payload.check_eq_ok_iff.2 ⟨hkind, fun child hchild => ?_⟩
    rw [← Value.children_of_payload? hpayload] at hchild
    obtain ⟨part, hpart, rfl⟩ := children_decoded hchild
    have helement := (matches_collection_iff.1 h).2 part hpart
    exact ⟨element, rfl, ty?_decoded element part,
      fun inner hinner => ih helement hinner (kind_decoded helement hinner)⟩

lemma itemsToJson_decoded {element : Ty} {items : List Json}
    (h : ∀ item ∈ items, (element.decoded item).toJson = .ok item.rounded) :
    itemsToJson (items.map element.decoded) = .ok (items.map Json.rounded) := by
  rw [itemsToJson_eq, mapM_eq_ok_iff, List.forall₂_map_left_iff, List.forall₂_map_right_iff,
    List.forall₂_same]
  exact h

lemma entriesToJson_decoded {element : Ty} {entries : List (String × Json)}
    (h : ∀ value ∈ entries.map Prod.snd, (element.decoded value).toJson = .ok value.rounded) :
    entriesToJson (Keyed.mapValues element.decoded entries) =
      .ok (Keyed.mapValues Json.rounded entries) := by
  rw [entriesToJson_eq, Keyed.traverse_eq_ok_iff, Keyed.mapValues, Keyed.mapValues,
    List.forall₂_map_left_iff, List.forall₂_map_right_iff, List.forall₂_same]
  exact fun entry hentry => ⟨rfl, h entry.2 (List.mem_map_of_mem hentry)⟩

/-- The value that a document of a type is decoded to is encoded as the document with its numbers
rounded. -/
lemma toJson_decoded {ty : Ty} {json : Json} (h : ty.Matches json) :
    (ty.decoded json).toJson = .ok json.rounded := by
  induction ty generalizing json with
  | scalar kind =>
    cases h with
    | number value =>
      change scalarToJson (.number value.toDouble) = .ok (.number value.rounded)
      rw [scalarToJson, Json.Number.ofDouble?, dif_pos value.isFinite_toDouble]
      rfl
    | _ => rfl
  | collection shape element ih =>
    cases h with
    | null =>
      rw [decoded_null]
      rfl
    | list hitems =>
      have hencode := itemsToJson_decoded fun item hitem => ih (hitems item hitem)
      rw [Json.rounded_array, decoded, Value.list, Value.known, Value.toJson,
        Payload.toJson, hencode]
      rfl
    | set hitems =>
      have hencode := itemsToJson_decoded fun item hitem => ih (hitems item hitem)
      rw [Json.rounded_array, decoded, Value.set, Value.known, Value.toJson,
        Payload.toJson, hencode]
      rfl
    | map hvalues =>
      have hencode := entriesToJson_decoded fun value hvalue => ih (hvalues value hvalue)
      rw [Json.rounded_object, decoded, Value.known, Value.toJson, Payload.toJson, hencode]
      rfl

end Ty

namespace Value

/-! ## Decoding -/

/-- Decoding succeeds exactly for the documents of the type, and gives the value that they stand
for. -/
lemma ofJson_eq_ok_iff {ty : Ty} {json : Json} {value : Value} :
    ofJson ty json = .ok value ↔ ty.Matches json ∧ value = ty.decoded json := by
  induction ty generalizing json value with
  | scalar kind =>
    rw [Ty.matches_scalar_iff]
    cases kind <;> cases json <;> simp [ofJson, Json.isOf, Ty.decoded, eq_comm]
  | collection shape element ih =>
    have hitems (items : List Json) (values : List Value) :
        items.mapM (ofJson element) = .ok values ↔
          (∀ item ∈ items, element.Matches item) ∧ values = items.map element.decoded :=
      mapM_eq_ok_iff_map fun _ _ => ih
    have hentries (entries : List (String × Json)) (values : List (String × Value)) :
        Keyed.traverse (ofJson element) entries = .ok values ↔
          (∀ value ∈ entries.map Prod.snd, element.Matches value) ∧
            values = Keyed.mapValues element.decoded entries :=
      Keyed.traverse_eq_ok_iff_mapValues fun _ _ => ih
    -- where the kinds agree the children decide, and where they do not both sides fail
    have hchildren {shape : Shape} {json : Json} (hkind : json.isOf (.collection shape) = true) :
        (Ty.collection shape element).Matches json ↔
          ∀ child ∈ json.children, element.Matches child :=
      Ty.matches_collection_iff.trans (and_iff_right hkind)
    cases json with
    | null =>
      rw [ofJson, Ty.decoded_null, Except.ok.injEq, eq_comm]
      exact (and_iff_right (.null _)).symm
    | array items =>
      cases shape with
      | list =>
        rw [hchildren rfl]
        exact bind_pure_eq_ok_iff (hitems items)
      | set =>
        rw [hchildren rfl]
        exact bind_pure_eq_ok_iff (hitems items)
      | map => simp [ofJson, Ty.matches_collection_iff, Json.isOf]
    | object entries =>
      cases shape with
      | map =>
        rw [hchildren rfl]
        exact bind_pure_eq_ok_iff (hentries entries)
      | _ => simp [ofJson, Ty.matches_collection_iff, Json.isOf]
    | _ => cases shape <;> simp [ofJson, Ty.matches_collection_iff, Json.isOf]

lemma ofJson_of_misfit {ty : Ty} {json : Json} (h : json.isOf ty.kind = false) :
    ofJson ty json = .error (notOfKind ty json) := by
  rcases ty with kind | ⟨shape, element⟩
  · cases kind <;> cases json <;> first | rfl | cases h
  · cases shape <;> cases json <;> first | rfl | cases h

/-- A document of the kind of a collection type is refused for one of its children. -/
lemma mapM_eq_error_of_ofJson {shape : Shape} {element : Ty} {json : Json} {error : Error}
    (hkind : json.isOf (.collection shape) = true)
    (h : ofJson (.collection shape element) json = .error error) :
    json.children.mapM (ofJson element) = .error error := by
  cases json with
  | null => cases shape <;> cases h
  | array items =>
    cases shape with
    | map => cases hkind
    | _ =>
      obtain h | ⟨_, -, h⟩ := bind_eq_error_iff.1 h
      · exact h
      · cases h
  | object entries =>
    cases shape with
    | map =>
      obtain h | ⟨_, -, h⟩ := bind_eq_error_iff.1 h
      · exact Keyed.traverse_eq_error_iff.1 h
      · cases h
    | _ => cases hkind
  | _ => cases shape <;> cases hkind

lemma nullOrChecked_decoded {ty : Ty} {json : Json} (h : ty.Matches json) :
    NullOrChecked ty (ty.decoded json) := by
  cases hpayload : (ty.decoded json).payload? with
  | none =>
    have hknown := (isFullyKnown_iff.1 (Ty.isFullyKnown_decoded ty json)).1
    exact Or.inl (eq_null_of_payload? (Ty.ty?_decoded ty json) hknown hpayload)
  | some payload =>
    exact Or.inr
      ⟨payload, eq_known_of_payload? (Ty.ty?_decoded ty json) hpayload, Ty.check_decoded h hpayload⟩

/-- Decoding fails at the first part, in the order in which parts are written, that is not of its
kind. -/
lemma find?_misfits_of_ofJson {ty : Ty} {json : Json} {error : Error}
    (h : ofJson ty json = .error error) :
    ∃ part, (ty.parts json).find? Ty.misfits = some part ∧ error = notOfKind part.1 part.2 := by
  induction ty generalizing json with
  | scalar kind =>
    have hkind : json.isOf (Ty.scalar kind).kind = false := by
      rw [← Bool.not_eq_true, Ty.kind, ← Ty.matches_scalar_iff]
      intro hmatches
      cases h.symm.trans (ofJson_eq_ok_iff.2 ⟨hmatches, rfl⟩)
    rw [ofJson_of_misfit hkind] at h
    exact ⟨(.scalar kind, json), by simp [Ty.parts, Ty.misfits, hkind], (Except.error.inj h).symm⟩
  | collection shape element ih =>
    rw [Ty.parts]
    cases hkind : json.isOf (Ty.collection shape element).kind with
    | false =>
      rw [ofJson_of_misfit hkind] at h
      exact ⟨_, List.find?_cons_of_pos (by simp [Ty.misfits, hkind]), (Except.error.inj h).symm⟩
    | true =>
      obtain ⟨before, child, after, hsplit, hbefore, hchild⟩ :=
        mapM_eq_error_iff.1 (mapM_eq_error_of_ofJson hkind h)
      obtain ⟨part, hfirst, hpart⟩ := ih hchild
      refine ⟨part, ?_, hpart⟩
      -- the collection is of its kind, and so are all parts of the children that were decoded
      -- before
      have hnone : (before.flatMap element.parts).find? Ty.misfits = none := by
        rw [List.find?_eq_none]
        intro other hother
        obtain ⟨earlier, hearlier, hother⟩ := List.mem_flatMap.1 hother
        obtain ⟨value, hvalue⟩ := hbefore earlier hearlier
        rw [Ty.misfits_of_matches (ofJson_eq_ok_iff.1 hvalue).1 hother]
        exact Bool.false_ne_true
      rw [List.find?_cons_of_neg (by simp [Ty.misfits, hkind]), hsplit, List.flatMap_append,
        List.find?_append, hnone, Option.none_or, List.flatMap_cons, List.find?_append, hfirst]
      rfl

/-- A document is decoded as a value of a type exactly when it is of the type.  The value declares
the type, is determined throughout, has no node without a type, and its payload is accepted for the
type; it is encoded as the document with every number replaced by the double nearest to it, than
which no finite double is nearer to the number, and that is decoded as the value again.  Any other
document is refused for its first part, in the order in which parts are written, that is not of the
kind expected of it. -/
theorem ofJson_isOk_iff_matches (ty : Ty) (json : Json) :
    ((∃ value, ofJson ty json = .ok value) ↔ ty.Matches json) ∧
    (∀ value, ofJson ty json = .ok value →
      value.ty? = some ty ∧ value.isFullyKnown = true ∧ value.fullyTyped = true ∧
      (∀ payload, value.payload? = some payload → Value.checked ty payload = .ok value) ∧
      value.toJson = .ok json.rounded ∧ json.RoundsTo json.rounded ∧
      ofJson ty json.rounded = .ok value) ∧
    ∀ error, ofJson ty json = .error error →
      ∃ expected part, (ty.parts json).find? Ty.misfits = some (expected, part) ∧
        error = .notDecodable expected.kind part.text := by
  refine ⟨?_, ?_, ?_⟩
  · simp only [ofJson_eq_ok_iff, exists_and_left, exists_eq, and_true]
  · intro value h
    obtain ⟨hmatches, rfl⟩ := ofJson_eq_ok_iff.1 h
    have hknown := Ty.isFullyKnown_decoded ty json
    have hencoded := Ty.toJson_decoded hmatches
    refine ⟨Ty.ty?_decoded ty json, hknown, Ty.fullyTyped_decoded ty json, ?_, hencoded,
      json.roundsTo_rounded, ?_⟩
    · intro payload hpayload
      exact checked_eq_ok_iff.2
        ⟨Ty.check_decoded hmatches hpayload, eq_known_of_payload? (Ty.ty?_decoded ty json) hpayload⟩
    · obtain ⟨document, hdocument, hdecode⟩ := ofJson_toJson_of_nullOrChecked ty _
        (nullOrChecked_decoded hmatches) hknown (Ty.numbersFinite_decoded ty json)
      obtain rfl := Except.ok.inj (hencoded.symm.trans hdocument)
      exact hdecode
  · intro error h
    obtain ⟨⟨expected, part⟩, hfirst, rfl⟩ := find?_misfits_of_ofJson h
    exact ⟨expected, part, hfirst, rfl⟩

/-- Lists of numbers by name. -/
def readings : Ty := .collection .map (.collection .list (.scalar .number))

/-- A document of one list, of a number and a null, and whatever stands under another name. -/
def readingsAnd (number : Json.Number) (other : Json) : Json :=
  .object [("a", .array [.number number, .null]), ("b", other)]

/-- With a null under the other name the document is decoded.  Its number, `2 ^ 53 + 1`, is halfway
between two doubles and replaced by the even one, `2 ^ 53`.  With a list of a string and a truth
value under the other name it is refused for the string. -/
theorem ofJson_isOk_iff_matches_readings :
    let number : Json.Number := .integer 9007199254740993 (by decide)
    let even : Double := .finite false ⟨0x4340000000000000, by decide⟩
    let good := readingsAnd number .null
    let rounded := readingsAnd (.double even rfl) .null
    let bad := readingsAnd number (.array [.string "x", .bool true])
    let error := Error.notDecodable (.scalar .number) "\"x\""
    readings.Matches good ∧
      (∃ value, ofJson readings good = .ok value ∧ value.ty? = some readings ∧
        value.isFullyKnown = true ∧ value.fullyTyped = true ∧
        (∀ payload, value.payload? = some payload → Value.checked readings payload = .ok value) ∧
        value.toJson = .ok rounded ∧ good.RoundsTo rounded ∧ ofJson readings rounded = .ok value) ∧
      ofJson readings bad = .error error ∧ error.message = "can't decode \"x\" as Number" ∧
      ∃ expected part, (readings.parts bad).find? Ty.misfits = some (expected, part) ∧
        error = .notDecodable expected.kind part.text := by
  intro number even good rounded bad error
  have hdecoded : ∃ value, ofJson readings good = .ok value := ⟨_, rfl⟩
  have hnumber : number.rounded = .double even rfl := by decide +kernel
  have hrounded : good.rounded = rounded := congrArg (readingsAnd · .null) hnumber
  have hrefused : ofJson readings bad = .error error := rfl
  refine ⟨(ofJson_isOk_iff_matches readings good).1.1 hdecoded, ?_, hrefused, by decide,
    (ofJson_isOk_iff_matches readings bad).2.2 error hrefused⟩
  obtain ⟨value, hvalue⟩ := hdecoded
  have hgood := (ofJson_isOk_iff_matches readings good).2.1 value hvalue
  rw [hrounded] at hgood
  exact ⟨value, hvalue, hgood⟩

end Value

end Wire

end TypedAttributes
