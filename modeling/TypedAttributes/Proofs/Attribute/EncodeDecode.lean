/-
# Encoding and converting again

A well-typed value that has a wire type is encoded as a checked wire value of that type, and
converting the encoding by the type of the value gives an equal value.  It need not be the same one:
maps come back in key order, and elements with the element type that their collection declares,
which may differ from their own in the validations of its custom types.

For this reason the induction cannot be about the type of a value.  It is about all types equal to
that, since an element is converted by the type that the collection around it declares.
-/
import TypedAttributes.Proofs.Attribute.Acceptance
import TypedAttributes.Proofs.Attribute.Encoding
import TypedAttributes.Proofs.Attribute.ValueEquality

namespace TypedAttributes.Attribute

variable {ρ : Type}

/-- A wire value that encodes a typed value, and what it is to a type equal to that of the value: it
declares the wire type, every node of it declares one, it fits, it is nested no deeper than the
value, and what it stands for is equal to the value. -/
structure Encoding (ty : Ty ρ) (wire : Wire.Ty) (value : Value ρ)
    (encoded : Wire.Value) : Prop where
  toWire : value.toWire = .ok encoded
  declares : encoded.ty? = some wire
  typed : encoded.fullyTyped = true
  fits : ty.fits encoded = true
  nesting : encoded.nesting ≤ value.nesting
  reads : value.nanFree = true → (ty.interpret encoded).equal value = true

namespace Encoding

lemma scalar (kind : Scalar.Kind) (state : State kind.Content) :
    Encoding (.scalar kind : Ty ρ) (.scalar kind) (.scalar kind state)
      (.typed (.scalar kind) (state.map fun content => .scalar (kind.wrap content))) where
  toWire := by rw [Value.toWire]
  declares := rfl
  typed := by
    rw [Wire.Value.fullyTyped, Wire.Value.all_iff]
    cases state <;> simp [State.map, Wire.Value.ty?, Wire.Value.children]
  fits := by
    rw [Ty.fits_scalar_iff]
    refine ⟨rfl, fun payload hpayload => ?_⟩
    rcases state with _ | _ | content <;> cases hpayload
    exact Ty.kind_scalar_iff.2 ⟨content, rfl⟩
  nesting := by cases state <;> exact Nat.zero_le _
  reads h := by
    have hstate :
        Ty.scalarState kind (state.map fun content => .scalar (kind.wrap content)) = state := by
      rcases state with _ | _ | content
      · rfl
      · rfl
      · exact Ty.scalarState_wrap content
    rw [Ty.interpret, Wire.Value.state, hstate]
    exact Value.equal_scalar_self h

lemma nullCollection {shape : Shape} {element declared : Ty ρ} {wire : Wire.Ty}
    (helement : element.wireTy = .ok wire) (hdeclared : declared.wireTy = .ok wire)
    (hequal : element.equal declared = true) :
    Encoding (.collection shape element) (.collection shape wire)
      (.nullCollection shape (some declared)) (.null (.collection shape wire)) where
  toWire := toWire_nullCollection (Ty.wireTy_collection_eq_ok_iff.2 ⟨wire, hdeclared, rfl⟩)
  declares := rfl
  typed := rfl
  fits := Ty.fits_of_known?_eq_none (Ty.wireTy_collection_eq_ok_iff.2 ⟨wire, helement, rfl⟩) rfl
  nesting := Nat.zero_le _
  reads _ := (Value.equal_nullCollection shape _ _).trans hequal

lemma unknownCollection {shape : Shape} {element declared : Ty ρ} {wire : Wire.Ty}
    (helement : element.wireTy = .ok wire) (hdeclared : declared.wireTy = .ok wire)
    (hequal : element.equal declared = true) :
    Encoding (.collection shape element) (.collection shape wire)
      (.unknownCollection shape (some declared)) (.unknown (.collection shape wire)) where
  toWire := toWire_unknownCollection (Ty.wireTy_collection_eq_ok_iff.2 ⟨wire, hdeclared, rfl⟩)
  declares := rfl
  typed := rfl
  fits := Ty.fits_of_known?_eq_none (Ty.wireTy_collection_eq_ok_iff.2 ⟨wire, helement, rfl⟩) rfl
  nesting := Nat.zero_le _
  reads _ := (Value.equal_unknownCollection shape _ _).trans hequal

/-- A payload made of the encodings of the elements of a collection is that of an encoding of the
collection, provided that the collection is encoded with it and is what it stands for. -/
lemma known {shape : Shape} {element : Ty ρ} {wire : Wire.Ty} {value : Value ρ}
    {payload : Wire.Payload} (hwire : element.wireTy = .ok wire)
    (hkind : payload.kind = .collection shape)
    (hchildren : ∀ child ∈ payload.children, ∃ part ∈ value.elements,
      Encoding element wire part child)
    (hnesting : 0 < value.nesting)
    (htoWire : value.toWire = .ok (.known (.collection shape wire) payload))
    (hreads : value.nanFree = true →
      (Ty.collected shape element element.interpret payload).equal value = true) :
    Encoding (.collection shape element) (.collection shape wire) value
      (.known (.collection shape wire) payload) where
  toWire := htoWire
  declares := rfl
  typed := by
    refine Wire.Value.all_iff.2 ⟨rfl, fun child hchild => ?_⟩
    obtain ⟨part, -, h⟩ := hchildren child hchild
    exact h.typed
  fits := by
    refine Ty.fits_collection_iff.2 ⟨Ty.wireTy_collection_eq_ok_iff.2 ⟨wire, hwire, rfl⟩, ?_⟩
    rintro _ ⟨⟩
    refine ⟨hkind, fun child hchild => ?_⟩
    obtain ⟨part, -, h⟩ := hchildren child hchild
    exact h.fits
  nesting := by
    have hcollection : (Wire.Value.known (.collection shape wire) payload).isCollection = true :=
      Wire.Payload.isCollection_of_kind hkind
    refine (Wire.Value.nesting_le_iff hcollection).2 ⟨hnesting, fun child hchild => ?_⟩
    obtain ⟨part, hpart, h⟩ := hchildren child hchild
    exact Nat.le_trans h.nesting (Nat.le_sub_one_of_lt (Value.nesting_lt_of_mem_elements hpart))
  reads := hreads

variable {element declared : Ty ρ} {wire : Wire.Ty}

/-- What the encodings of some values stand for is equal to the values. -/
lemma equal_interpret {values : List (Value ρ)} {encoded : List Wire.Value}
    (h : List.Forall₂ (Encoding element wire) values encoded)
    (hnan : ∀ value ∈ values, value.nanFree = true) :
    List.Forall₂ (fun x y => x.equal y = true) (encoded.map element.interpret) values := by
  rw [List.forall₂_map_left_iff]
  exact ((List.forall₂_and_left _ _).2 ⟨hnan, h⟩).flip.imp fun _ _ hvalue => hvalue.2.reads hvalue.1

lemma list {items : List (Value ρ)} {encoded : List Wire.Value}
    (helement : element.wireTy = .ok wire) (hdeclared : declared.wireTy = .ok wire)
    (hequal : element.equal declared = true)
    (hitems : List.Forall₂ (Encoding element wire) items encoded) :
    Encoding (.collection .list element) (.collection .list wire)
      (.list (some declared) (.known items)) (.known (.collection .list wire) (.list encoded)) := by
  refine known helement rfl (fun child hchild => exists_of_mem_right hitems hchild) (Nat.succ_pos _)
    (toWire_list_known (Ty.wireTy_collection_eq_ok_iff.2 ⟨wire, hdeclared, rfl⟩)
      (hitems.imp fun _ _ h => h.toWire)) fun hnan => ?_
  rw [Ty.collected, Value.equal_list_known, Bool.and_eq_true, itemsEqual_iff]
  exact ⟨hequal, equal_interpret hitems fun item hitem => Value.nanFree_of_mem hnan hitem⟩

lemma set {members : List (Value ρ)} {encoded : List Wire.Value}
    (helement : element.wireTy = .ok wire) (hdeclared : declared.wireTy = .ok wire)
    (hequal : element.equal declared = true)
    (hmembers : List.Forall₂ (Encoding element wire) members encoded) :
    Encoding (.collection .set element) (.collection .set wire)
      (.set (some declared) (.known members)) (.known (.collection .set wire) (.set encoded)) := by
  refine known helement rfl (fun child hchild => exists_of_mem_right hmembers hchild)
    (Nat.succ_pos _)
    (toWire_set_known (Ty.wireTy_collection_eq_ok_iff.2 ⟨wire, hdeclared, rfl⟩)
      (hmembers.imp fun _ _ h => h.toWire)) fun hnan => ?_
  rw [Ty.collected, Value.equal_set_known, Bool.and_eq_true]
  exact ⟨hequal, membersEqual_of_forall₂
    (equal_interpret hmembers fun member hmember => Value.nanFree_of_mem hnan hmember)⟩

lemma map {entries : List (String × Value ρ)} {encoded : List (String × Wire.Value)}
    (helement : element.wireTy = .ok wire) (hdeclared : declared.wireTy = .ok wire)
    (hequal : element.equal declared = true) (hdistinct : Keyed.Distinct entries)
    (hentries : List.Forall₂ (fun entry w => entry.1 = w.1 ∧ Encoding element wire entry.2 w.2)
      entries encoded) :
    Encoding (.collection .map element) (.collection .map wire)
      (.map (some declared) (.known entries))
      (.known (.collection .map wire) (.ofEntries encoded)) := by
  have hkeys : Keyed.keys entries = Keyed.keys encoded :=
    Keyed.keys_eq_iff.2 (hentries.imp fun _ _ h => h.1)
  have hperm : (Keyed.ofEntries encoded).Perm encoded := by
    refine Keyed.ofEntries_perm ?_
    rwa [Keyed.Distinct, ← hkeys]
  -- the entries of the payload are those of the encoding in another order
  refine known helement rfl (fun child hchild => ?_) (Nat.succ_pos _)
    (toWire_map_known (Ty.wireTy_collection_eq_ok_iff.2 ⟨wire, hdeclared, rfl⟩)
      (hentries.imp fun _ _ h => ⟨h.1, h.2.toWire⟩)) fun hnan => ?_
  · obtain ⟨w, hw, rfl⟩ := List.mem_map.1 hchild
    obtain ⟨entry, hentry, -, h⟩ := exists_of_mem_right hentries (hperm.subset hw)
    exact ⟨entry.2, List.mem_map_of_mem hentry, h⟩
  · have hread : List.Forall₂ (fun (w : String × Wire.Value) (entry : String × Value ρ) =>
        w.1 = entry.1 ∧ (element.interpret w.2).equal entry.2 = true) encoded entries := by
      refine ((List.forall₂_and_left _ _).2 ⟨fun entry hentry => ?_, hentries⟩).flip.imp
        fun _ _ h => ⟨h.2.1.symm, h.2.2.reads h.1⟩
      exact Value.nanFree_of_mem hnan (List.mem_map_of_mem hentry)
    obtain ⟨arranged, harranged, hsame⟩ := List.perm_comp_forall₂ hperm hread
    rw [Ty.collected, Value.equal_map_known, Bool.and_eq_true]
    refine ⟨hequal, entriesEqual_of_perm hdistinct hsame ?_⟩
    rw [Keyed.mapValues, List.forall₂_map_left_iff]
    exact harranged

lemma custom {name : String} {base wrapped : Ty ρ} {validation validation' : Validation ρ}
    {inner : Value ρ} {encoded : Wire.Value} (hequal : base.equal wrapped = true)
    (h : Encoding base wire inner encoded) :
    Encoding (.custom name base validation) wire (.custom name wrapped validation' inner)
      encoded where
  toWire := by
    rw [Value.toWire]
    exact h.toWire
  declares := h.declares
  typed := h.typed
  fits := by
    rw [Ty.fits_custom]
    exact h.fits
  nesting := h.nesting
  reads hnan := by
    rw [Ty.interpret, Value.equal, hequal, beq_self_eq_true]
    exact h.reads (Value.nanFree_of_mem hnan (List.mem_singleton_self inner))

/-- An encoding that is known is checked for the wire type. -/
lemma checked {ty : Ty ρ} {value : Value ρ} {encoded : Wire.Value}
    (h : Encoding ty wire value encoded) (hwire : ty.wireTy = .ok wire) {payload : Wire.Payload}
    (hpayload : encoded.payload? = some payload) :
    Wire.Value.checked wire payload = .ok encoded := by
  obtain rfl := Wire.Value.eq_known_of_payload? h.declares hpayload
  rw [Wire.Value.checked_eq_ok_iff,
    ← Ty.fits_known_iff_check hwire (Wire.Value.all_iff.1 h.typed).2]
  exact ⟨h.fits, rfl⟩

end Encoding

/-! ## Encoding well-typed values -/

/-- Whether a value has an encoding that is right for every type equal to its own. -/
def Encodable (value : Value ρ) : Prop :=
  ∀ ty : Ty ρ, ty.equal value.ty = true →
    ∃ wire encoded, ty.wireTy = .ok wire ∧ Encoding ty wire value encoded

/-- An element whose type equals the declared one is encoded for every type equal to that. -/
lemma Encodable.exists_encoding {element declared : Ty ρ} {wire : Wire.Ty} {part : Value ρ}
    (h : Encodable part) (hwire : element.wireTy = .ok wire)
    (hequal : element.equal declared = true) (hpart : part.ty.equal declared = true) :
    ∃ encoded, Encoding element wire part encoded := by
  rw [Ty.equal_comm] at hpart
  obtain ⟨wire', encoded, hwire', hencoding⟩ := h element (Ty.equal_trans hequal hpart)
  obtain rfl : wire = wire' := Except.ok.inj (hwire.symm.trans hwire')
  exact ⟨encoded, hencoding⟩

/-- For a collection it is enough to look at collection types with an element type equal to the
declared one and of the same wire type. -/
lemma encodable_of_element {shape : Shape} {declared : Option (Ty ρ)} {value : Value ρ}
    (hvalue : value.ty = .ofElement shape declared)
    (h : ∀ element d wire, declared = some d → element.wireTy = .ok wire → d.wireTy = .ok wire →
      element.equal d = true →
        ∃ encoded, Encoding (.collection shape element) (.collection shape wire) value encoded) :
    Encodable value := by
  intro ty hty
  rw [hvalue] at hty
  obtain ⟨element, d, rfl, rfl, hequal⟩ := Ty.equal_ofElement_iff.1 hty
  obtain ⟨wire, helement, hd⟩ := Ty.wireTy_of_equal hequal
  obtain ⟨encoded, hencoding⟩ := h element d wire rfl helement hd hequal
  exact ⟨.collection shape wire, encoded, Ty.wireTy_collection_eq_ok_iff.2 ⟨wire, helement, rfl⟩,
    hencoding⟩

lemma encodable_nullCollection (shape : Shape) (declared : Option (Ty ρ)) :
    Encodable (.nullCollection shape declared) := by
  have hty : (Value.nullCollection shape declared).ty = .ofElement shape declared := by
    cases shape <;> rfl
  refine encodable_of_element hty ?_
  rintro element d wire rfl helement hd hequal
  exact ⟨_, .nullCollection helement hd hequal⟩

lemma encodable_unknownCollection (shape : Shape) (declared : Option (Ty ρ)) :
    Encodable (.unknownCollection shape declared) := by
  have hty : (Value.unknownCollection shape declared).ty = .ofElement shape declared := by
    cases shape <;> rfl
  refine encodable_of_element hty ?_
  rintro element d wire rfl helement hd hequal
  exact ⟨_, .unknownCollection helement hd hequal⟩

lemma encodable_list {declared : Option (Ty ρ)} {items : List (Value ρ)}
    (helements : ∀ item ∈ items, Ty.elementsEqual (some item.ty) declared = true)
    (hitems : ∀ item ∈ items, Encodable item) : Encodable (.list declared (.known items)) := by
  refine encodable_of_element rfl ?_
  rintro element d wire rfl helement hd hequal
  obtain ⟨encoded, hencoded⟩ := exists_forall₂ fun item hitem =>
    (hitems item hitem).exists_encoding helement hequal (helements item hitem)
  exact ⟨_, .list helement hd hequal hencoded⟩

lemma encodable_set {declared : Option (Ty ρ)} {members : List (Value ρ)}
    (helements : ∀ member ∈ members, Ty.elementsEqual (some member.ty) declared = true)
    (hmembers : ∀ member ∈ members, Encodable member) :
    Encodable (.set declared (.known members)) := by
  refine encodable_of_element rfl ?_
  rintro element d wire rfl helement hd hequal
  obtain ⟨encoded, hencoded⟩ := exists_forall₂ fun member hmember =>
    (hmembers member hmember).exists_encoding helement hequal (helements member hmember)
  exact ⟨_, .set helement hd hequal hencoded⟩

lemma encodable_map {declared : Option (Ty ρ)} {entries : List (String × Value ρ)}
    (hdistinct : Keyed.Distinct entries)
    (helements : ∀ value ∈ entries.map Prod.snd, Ty.elementsEqual (some value.ty) declared = true)
    (hvalues : ∀ value ∈ entries.map Prod.snd, Encodable value) :
    Encodable (.map declared (.known entries)) := by
  refine encodable_of_element rfl ?_
  rintro element d wire rfl helement hd hequal
  have hentry : ∀ entry ∈ entries, ∃ w : String × Wire.Value,
      entry.1 = w.1 ∧ Encoding element wire entry.2 w.2 := by
    intro entry hentry
    have hmem : entry.2 ∈ entries.map Prod.snd := List.mem_map_of_mem hentry
    obtain ⟨encoded, hencoded⟩ :=
      (hvalues entry.2 hmem).exists_encoding helement hequal (helements entry.2 hmem)
    exact ⟨(entry.1, encoded), rfl, hencoded⟩
  obtain ⟨encoded, hencoded⟩ := exists_forall₂ hentry
  exact ⟨_, .map helement hd hequal hdistinct hencoded⟩

lemma encodable_custom {name : String} {base : Ty ρ} {validation : Validation ρ} {inner : Value ρ}
    (hbase : inner.ty.equal base = true) (hinner : Encodable inner) :
    Encodable (.custom name base validation inner) := by
  intro ty hty
  obtain ⟨b, v, rfl, hb⟩ := Ty.equal_custom_iff.1 hty
  rw [Ty.equal_comm] at hbase
  obtain ⟨wire, encoded, hwire, hencoding⟩ := hinner b (Ty.equal_trans hb hbase)
  exact ⟨wire, encoded, hwire, hencoding.custom hb⟩

/-- Every well-typed value whose maps have distinct keys is encodable. -/
lemma encodable_of_wellTyped (value : Value ρ) (htyped : value.wellTyped = true)
    (hkeys : value.keysDistinct = true) : Encodable value := by
  induction value using Value.induction with
  | step value ih =>
    have hparts : ∀ part ∈ value.parts, Encodable part := fun part hpart =>
      ih part hpart (Value.wellTyped_of_mem htyped hpart) (Value.keysDistinct_of_mem hkeys hpart)
    have hnode := (Value.all_iff.1 htyped).1
    cases value with
    | scalar kind state =>
      intro ty hty
      obtain rfl := Ty.equal_scalar_iff.1 hty
      exact ⟨_, _, rfl, .scalar kind state⟩
    | list declared state =>
      rcases state with _ | _ | items
      · exact encodable_nullCollection .list declared
      · exact encodable_unknownCollection .list declared
      · exact encodable_list (List.all_eq_true.1 hnode) hparts
    | map declared state =>
      rcases state with _ | _ | entries
      · exact encodable_nullCollection .map declared
      · exact encodable_unknownCollection .map declared
      · have hdistinct : Keyed.Distinct entries := of_decide_eq_true (Value.all_iff.1 hkeys).1
        exact encodable_map hdistinct (List.all_eq_true.1 hnode) hparts
    | set declared state =>
      rcases state with _ | _ | members
      · exact encodable_nullCollection .set declared
      · exact encodable_unknownCollection .set declared
      · exact encodable_set (List.all_eq_true.1 hnode) hparts
    | custom name base validation inner =>
      exact encodable_custom hnode (hparts inner (List.mem_singleton_self inner))

/-- A well-typed value that is encoded has a wire type. -/
lemma wireTy_of_toWire {value : Value ρ} {encoded : Wire.Value} (htyped : value.wellTyped = true)
    (h : value.toWire = .ok encoded) : ∃ wire, value.ty.wireTy = .ok wire := by
  cases value with
  | scalar kind state => exact ⟨.scalar kind, rfl⟩
  | list declared state =>
    cases state <;>
    · rw [Value.toWire] at h
      obtain ⟨wire, hwire, -⟩ := bind_eq_ok_iff.1 h
      exact ⟨wire, hwire⟩
  | map declared state =>
    cases state <;>
    · rw [Value.toWire] at h
      obtain ⟨wire, hwire, -⟩ := bind_eq_ok_iff.1 h
      exact ⟨wire, hwire⟩
  | set declared state =>
    cases state <;>
    · rw [Value.toWire] at h
      obtain ⟨wire, hwire, -⟩ := bind_eq_ok_iff.1 h
      exact ⟨wire, hwire⟩
  | custom name base validation inner =>
    -- the base equals the type of a value, and what equals anything is complete
    have hbase : inner.ty.equal base = true := (Value.all_iff.1 htyped).1
    obtain ⟨wire, -, hwire⟩ := Ty.wireTy_of_equal hbase
    exact ⟨wire, hwire⟩

/-- A well-typed value is encoded exactly when its type has a wire type.  The encoding is of that
wire type and is checked if it is known; and it is converted by the type of the value, under every
limit that the nesting of the value allows, to a value that is equal to it unless there is a `nan`
in it. -/
theorem ofWireValue_of_toWire (value : Value ρ) (htyped : value.wellTyped = true)
    (hkeys : value.keysDistinct = true) :
    ((∃ encoded, value.toWire = .ok encoded) ↔ ∃ wire, value.ty.wireTy = .ok wire) ∧
      ∀ wire, value.ty.wireTy = .ok wire → ∃ encoded, value.toWire = .ok encoded ∧
        encoded.ty? = some wire ∧
        (∀ payload, encoded.payload? = some payload →
          Wire.Value.checked wire payload = .ok encoded) ∧
        ∀ limits : Limits, value.nesting ≤ limits.maxDepth →
          ∃ decoded, value.ty.ofWireValue encoded limits = .ok decoded ∧
            (value.nanFree = true → decoded.equal value = true) := by
  have hencoding : ∀ wire, value.ty.wireTy = .ok wire →
      ∃ encoded, Encoding value.ty wire value encoded := by
    intro wire hwire
    have hself : value.ty.equal value.ty = true := by
      rw [Ty.equal_self]
      exact Ty.isComplete_iff.2 ⟨wire, hwire⟩
    obtain ⟨wire', encoded, hwire', h⟩ := encodable_of_wellTyped value htyped hkeys _ hself
    obtain rfl : wire = wire' := Except.ok.inj (hwire.symm.trans hwire')
    exact ⟨encoded, h⟩
  refine ⟨⟨fun ⟨encoded, h⟩ => wireTy_of_toWire htyped h, fun ⟨wire, hwire⟩ => ?_⟩,
    fun wire hwire => ?_⟩
  · obtain ⟨encoded, h⟩ := hencoding wire hwire
    exact ⟨encoded, h.toWire⟩
  · obtain ⟨encoded, h⟩ := hencoding wire hwire
    refine ⟨encoded, h.toWire, h.declares, fun payload => h.checked hwire, fun limits hlimits => ?_⟩
    refine ⟨value.ty.interpret encoded, Ty.convert_eq_ok_iff.2 ⟨⟨?_, h.fits, ?_⟩, rfl⟩, h.reads⟩
    · exact Ty.isComplete_iff.2 ⟨wire, hwire⟩
    · rw [Walk.room_start]
      exact Nat.le_trans h.nesting hlimits

/-- Weights by host, the weights of a host being a custom type.  The hosts are not in key order, and
the weights of both differ from the declared ones in their validation. -/
def Value.weightsByHost : Value Empty :=
  let weights : Ty Empty := .collection .set (.scalar .number)
  .map (some (.custom "Weights" weights .none)) (.known
    [("b", .custom "Weights" weights .ofBase (.set (some (.scalar .number))
        (.known [.scalar .number (.known .zero), .scalar .number .null,
          .scalar .number .unknown]))),
      ("a", .custom "Weights" weights .ofBase (.set (some (.scalar .number)) .null))])

theorem ofWireValue_of_toWire_weightsByHost :
    Value.weightsByHost.wellTyped = true ∧ Value.weightsByHost.keysDistinct = true ∧
      ∃ wire encoded decoded, Value.weightsByHost.ty.wireTy = .ok wire ∧
        Value.weightsByHost.toWire = .ok encoded ∧
        Value.weightsByHost.ty.ofWireValue encoded ⟨2⟩ = .ok decoded ∧
        decoded.equal Value.weightsByHost = true := by
  refine ⟨by decide, by decide, ?_⟩
  obtain ⟨encoded, hencoded, -, -, hdecode⟩ :=
    (ofWireValue_of_toWire Value.weightsByHost (by decide) (by decide)).2 _ rfl
  obtain ⟨decoded, hdecoded, hequal⟩ := hdecode ⟨2⟩ (by decide)
  exact ⟨_, encoded, decoded, rfl, hencoded, hdecoded, hequal (by decide)⟩

end TypedAttributes.Attribute
