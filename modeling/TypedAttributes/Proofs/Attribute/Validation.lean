/-
# What validators of collections report

The validators of lists, maps and sets go through the children of a known value one by one.  Their
findings are written here as one report for each child, in order; a child that is not fully known
has an empty report.  Whoever argues about the findings of a validator argues about these reports.

A type without a validator is treated as one whose validator finds nothing, `Validator.silent`.
-/
import TypedAttributes.Attribute.Validate
import TypedAttributes.Proofs.Attribute.Conversion

namespace TypedAttributes.Attribute

variable {ρ : Type}

namespace Validator

/-- The validator that finds nothing. -/
def silent : Validator ρ := fun _ _ _ => []

/-! ## Looking into a value -/

lemma inspect_of_known?_eq_none {α : Type} {shape : Shape}
    {decode : Wire.Value → Except Wire.Error α} {declared : Wire.Ty} {state : State Wire.Payload}
    {path : Path ρ} {content : α → Diagnostics ρ} (hkind : declared.kind = .collection shape)
    (hstate : state.known? = none) :
    inspect shape decode (.typed declared state) path content = [] := by
  cases state with
  | known payload => cases hstate
  | null => rw [inspect.eq_def]; exact if_pos hkind
  | unknown => rw [inspect.eq_def]; exact if_pos hkind

lemma inspect_known {α : Type} {shape : Shape} {decode : Wire.Value → Except Wire.Error α}
    {declared : Wire.Ty} {payload : Wire.Payload} {path : Path ρ} {content : α → Diagnostics ρ}
    {found : α} (hkind : declared.kind = .collection shape)
    (hdecode : decode (.known declared payload) = .ok found) :
    inspect shape decode (.known declared payload) path content = content found := by
  simp only [inspect.eq_def, Wire.Value.known, if_pos hkind]
  rw [Wire.Value.known] at hdecode
  rw [hdecode]

lemma inspect_of_kind_ne {α : Type} {shape : Shape} {decode : Wire.Value → Except Wire.Error α}
    {declared : Wire.Ty} {state : State Wire.Payload} {path : Path ρ} {content : α → Diagnostics ρ}
    (hkind : declared.kind ≠ .collection shape) :
    inspect shape decode (.typed declared state) path content =
      [.providerBug path shape
        ("expected " ++ shape.name ++ " value, received " ++
          (Wire.Value.typed declared state).text)] := by
  rw [inspect.eq_def]
  exact if_neg hkind

lemma inspect_of_decode_error {α : Type} {shape : Shape} {decode : Wire.Value → Except Wire.Error α}
    {declared : Wire.Ty} {payload : Wire.Payload} {path : Path ρ} {content : α → Diagnostics ρ}
    {error : Wire.Error} (hkind : declared.kind = .collection shape)
    (hdecode : decode (.known declared payload) = .error error) :
    inspect shape decode (.known declared payload) path content =
      [.providerBug path shape error.message] := by
  rw [Wire.Value.known] at hdecode
  simp only [inspect.eq_def, Wire.Value.known, if_pos hkind, hdecode]

lemma enter_of_descend {path : Path ρ} {walk below : Walk} {inside : Walk → Diagnostics ρ}
    (h : walk.descend = .ok below) : enter path walk inside = inside below := by
  rw [enter, h]

/-! ## One report for each child -/

lemma items_eq_flatten (element : Validator ρ) (path : Path ρ) (walk : Walk) (position : Nat)
    (found : List Wire.Value) :
    items element path walk position found =
      (found.mapIdx fun i item =>
        if item.isFullyKnown then element item (path.extend (.index (position + i))) walk
        else []).flatten := by
  induction found generalizing position with
  | nil => rfl
  | cons item rest ih =>
    rw [items, ih, List.mapIdx_cons, List.flatten_cons]
    simp only [Nat.add_zero, Nat.add_assoc, Nat.add_comm 1]

lemma values_eq_flatten (element : Validator ρ) (path : Path ρ) (walk : Walk)
    (entries : List (String × Wire.Value)) :
    values element path walk entries =
      (entries.map fun entry =>
        if entry.2.isFullyKnown then element entry.2 (path.extend (.key entry.1)) walk
        else []).flatten := by
  rw [values, List.flatMap_def]

lemma members_eq_flatten (convert : Wire.Value → Walk → Except Error (Value ρ))
    (element : Option (Validator ρ)) (path : Path ρ) (walk : Walk) (found : List Wire.Value) :
    members convert element path walk found =
      (found.mapIdx fun i value =>
        if value.isFullyKnown then member convert element path walk value (found.drop (i + 1))
        else []).flatten := by
  induction found with
  | nil => rfl
  | cons value rest ih =>
    rw [members, ih, List.mapIdx_cons, List.flatten_cons]
    rfl

lemma repeats_eq_flatten (address : Path ρ) (value : Wire.Value) (later : List Wire.Value) :
    repeats address value later =
      (later.map fun other =>
        if other.isFullyKnown && other.equal value then [.duplicateElement address other]
        else []).flatten := by
  induction later with
  | nil => rfl
  | cons other rest ih =>
    rw [List.map_cons, List.flatten_cons, ← ih, repeats, List.filter_cons]
    split <;> rfl

/-- The findings about a member that is converted are those of the element type, addressed at the
converted member, and then those about its repetitions. -/
lemma member_of_convert {convert : Wire.Value → Walk → Except Error (Value ρ)}
    {element : Option (Validator ρ)} {path : Path ρ} {walk : Walk} {value : Wire.Value}
    {later : List Wire.Value} {converted : Value ρ} (h : convert value walk = .ok converted) :
    member convert element path walk value later =
      element.getD silent value (path.extend (.member converted)) walk ++
        repeats (path.extend (.member converted)) value later := by
  rw [member, h]
  cases element <;> rfl

/-- The later members count for the findings about a member as its repetitions only: whatever else
there is to find is found without them. -/
lemma exists_member_eq (convert : Wire.Value → Walk → Except Error (Value ρ))
    (element : Option (Validator ρ)) (path : Path ρ) (walk : Walk) (value : Wire.Value) :
    ∃ (own : Diagnostics ρ) (address : Path ρ), ∀ later,
      member convert element path walk value later = own ++ repeats address value later := by
  cases hconvert : convert value walk with
  | ok converted => exact ⟨_, _, fun later => member_of_convert hconvert⟩
  | error error =>
    exact ⟨[.conversionFailure path error], path, fun later => by rw [member, hconvert]; rfl⟩

/-! ## Known collections -/

variable {declared : Wire.Ty} {path : Path ρ} {walk below : Walk} {element : Option (Validator ρ)}

lemma list_of_known {found : List Wire.Value} (hkind : declared.kind = .collection .list) :
    list element (.known declared (.list found)) path walk =
      element.elim [] fun validator =>
        enter path walk fun below => items validator path below 0 found := by
  have hdecode : (Wire.Value.known declared (.list found)).asList = .ok found := rfl
  rw [list, inspect_known hkind hdecode]
  cases element <;> rfl

lemma map_of_known {found : List (String × Wire.Value)} (hkind : declared.kind = .collection .map) :
    map element (.known declared (.map found)) path walk =
      element.elim [] fun validator =>
        enter path walk fun below => values validator path below found := by
  have hdecode : (Wire.Value.known declared (.map found)).asMap = .ok found := rfl
  rw [map, inspect_known hkind hdecode]
  cases element <;> rfl

lemma set_of_known {convert : Wire.Value → Walk → Except Error (Value ρ)} {found : List Wire.Value}
    (hkind : declared.kind = .collection .set) :
    set convert element (.known declared (.set found)) path walk =
      enter path walk fun below => members convert element path below found := by
  have hdecode : (Wire.Value.known declared (.set found)).asSet = .ok found := rfl
  rw [set, inspect_known hkind hdecode]

lemma bareSet_of_known {found : List Wire.Value} (hkind : declared.kind = .collection .set) :
    bareSet (.known declared (.set found)) path walk =
      [.providerBug path .set (Error.missingElementType .set).message] := by
  have hdecode : (Wire.Value.known declared (.set found)).asSet = .ok found := rfl
  rw [bareSet, inspect_known hkind hdecode]

lemma list_known {found : List Wire.Value} (hkind : declared.kind = .collection .list)
    (hwalk : walk.descend = .ok below) :
    list element (.known declared (.list found)) path walk =
      (found.mapIdx fun i item =>
        if item.isFullyKnown then element.getD silent item (path.extend (.index i)) below
        else []).flatten := by
  rw [list_of_known hkind]
  cases element with
  | some validator =>
    simp only [Option.elim_some, enter_of_descend hwalk, items_eq_flatten, Nat.zero_add,
      Option.getD_some]
  | none => simp [silent, List.flatten_eq_nil_iff, List.mem_mapIdx]

lemma map_known {found : List (String × Wire.Value)} (hkind : declared.kind = .collection .map)
    (hwalk : walk.descend = .ok below) :
    map element (.known declared (.map found)) path walk =
      (found.map fun entry =>
        if entry.2.isFullyKnown then element.getD silent entry.2 (path.extend (.key entry.1)) below
        else []).flatten := by
  rw [map_of_known hkind]
  cases element with
  | some validator =>
    simp only [Option.elim_some, enter_of_descend hwalk, values_eq_flatten, Option.getD_some]
  | none => simp [silent]

lemma set_known {convert : Wire.Value → Walk → Except Error (Value ρ)} {found : List Wire.Value}
    (hkind : declared.kind = .collection .set) (hwalk : walk.descend = .ok below) :
    set convert element (.known declared (.set found)) path walk =
      (found.mapIdx fun i value =>
        if value.isFullyKnown then member convert element path below value (found.drop (i + 1))
        else []).flatten := by
  rw [set_of_known hkind, enter_of_descend hwalk, members_eq_flatten]

end Validator

/-! ## What a type finds -/

namespace Ty

/-- Whether no custom type occurs in a type. -/
def customFree : Ty ρ → Bool
  | .scalar _ => true
  | .collection _ element => element.customFree
  | .bare _ => true
  | .custom _ _ _ => false

/-- The findings about a wire value; a type without a validator finds nothing. -/
def findings (meaning : ρ → Validator ρ) (ty : Ty ρ) : Validator ρ :=
  (ty.validator? meaning).getD .silent

variable {meaning : ρ → Validator ρ}

/-- Every collection type has a validator. -/
lemma validate?_eq_some_findings {ty : Ty ρ} (hty : ty.shape?.isSome = true)
    (input : Wire.Value) (path : Path ρ) (limits : Limits) :
    ty.validate? meaning input path limits =
      some (ty.findings meaning input path (.start limits)) := by
  rcases ty with _ | ⟨shape, element⟩ | shape | _
  · cases hty
  · cases shape <;> rfl
  · cases shape <;> rfl
  · cases hty

lemma exists_eq_ofElement {ty : Ty ρ} {shape : Shape} (h : ty.shape? = some shape) :
    ∃ element, ty = .ofElement shape element := by
  rcases ty with _ | ⟨_, element⟩ | _ | _
  · cases h
  · cases h
    exact ⟨some element, rfl⟩
  · cases h
    exact ⟨none, rfl⟩
  · cases h

lemma findings_list (element : Option (Ty ρ)) :
    (ofElement .list element).findings meaning = .list (element.bind (validator? meaning)) := by
  cases element <;> rfl

lemma findings_map (element : Option (Ty ρ)) :
    (ofElement .map element).findings meaning = .map (element.bind (validator? meaning)) := by
  cases element <;> rfl

lemma findings_set (element : Ty ρ) :
    (ofElement .set (some element)).findings meaning =
      .set element.convert (element.validator? meaning) := rfl

lemma findings_bareSet : (ofElement .set none : Ty ρ).findings meaning = .bareSet := rfl

lemma kind_of_convert {shape : Shape} {element : Ty ρ} {declared : Wire.Ty}
    {state : State Wire.Payload} {walk : Walk} {value : Value ρ}
    (h : (Ty.collection shape element).convert (.typed declared state) walk = .ok value) :
    declared.kind = .collection shape := by
  obtain ⟨wire, -, rfl⟩ := wireTy_collection_eq_ok_iff.1 (wireTy_of_convert h)
  rfl

/-- Conversion of a known collection enters it and converts its children. -/
lemma children_of_convert {shape : Shape} {element : Ty ρ} {declared : Wire.Ty}
    {payload : Wire.Payload} {walk : Walk} {value : Value ρ}
    (h : (Ty.collection shape element).convert (.known declared payload) walk = .ok value) :
    ∃ below, walk.descend = .ok below ∧ payload.kind = .collection shape ∧
      ∀ child ∈ payload.children, ∃ converted, element.convert child below = .ok converted := by
  obtain ⟨below, hwalk, hpayload, hchildren, -⟩ :=
    (convert_known_eq_ok_iff (wireTy_of_convert h) fun child below converted =>
      convert_eq_ok_iff).1 h
  exact ⟨below, hwalk, hpayload,
    fun child hchild => ⟨_, convert_eq_ok_iff.2 ⟨hchildren child hchild, rfl⟩⟩⟩

/-- There are no findings about a value that is not known. -/
lemma findings_of_known?_eq_none {shape : Shape} {element : Ty ρ}
    {declared : Wire.Ty} {state : State Wire.Payload} (hkind : declared.kind = .collection shape)
    (hstate : state.known? = none) (path : Path ρ) (walk : Walk) :
    (Ty.collection shape element).findings meaning (.typed declared state) path walk = [] := by
  cases shape <;> exact Validator.inspect_of_known?_eq_none hkind hstate

end Ty

end TypedAttributes.Attribute
