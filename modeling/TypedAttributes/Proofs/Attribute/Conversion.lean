/-
# What conversion accepts and what it makes of it

Conversion checks a wire value against a type level by level and stops at the first fault.  Here its
outcome is taken apart.  Whether it succeeds depends on three things that have nothing to do with
each other: that the type is complete, that the value fits the type, and that the value is not
nested deeper than the walk may still go.  What it then gives depends on neither the walk nor any
check: it is the interpretation of the value under the type, a total function.

`Ty.convert_eq_ok_iff` says this.  Everything that is claimed of converted values follows from it by
an argument about `Ty.fits` and `Ty.interpret` alone.
-/
import TypedAttributes.Attribute.Convert
import TypedAttributes.Proofs.Attribute.TypeEquality
import TypedAttributes.Proofs.Wire.Checked
import TypedAttributes.Proofs.Wire.Form

namespace TypedAttributes.Attribute

variable {ρ : Type}

/-! ## Walks -/

/-- The number of collections that a walk may still enter. -/
def Walk.room (walk : Walk) : Nat := walk.maxDepth - walk.depth

lemma Walk.descend_eq_ok_iff {walk below : Walk} :
    walk.descend = .ok below ↔ 0 < walk.room ∧ below = ⟨walk.maxDepth, walk.depth + 1⟩ := by
  rw [descend, room]
  split
  next h =>
    have : ¬ 0 < walk.maxDepth - walk.depth := by omega
    simp [this]
  next h =>
    have : 0 < walk.maxDepth - walk.depth := by omega
    simp [this, eq_comm]

lemma Walk.room_of_descend {walk below : Walk} (h : walk.descend = .ok below) :
    below.room = walk.room - 1 := by
  obtain ⟨-, rfl⟩ := descend_eq_ok_iff.1 h
  simp only [room]
  omega

lemma Walk.room_start (limits : Limits) : (Walk.start limits).room = limits.maxDepth := by
  simp [room, start]

/-! ## Fitting values -/

namespace Ty

/-- Whether a wire value fits a type.  It has no type, or it declares the wire type of the type and
is null, unknown, or known with a payload of the right kind, all of whose children fit the element
type. -/
def fits : Ty ρ → Wire.Value → Bool
  | _, .untyped => true
  | .scalar kind, .typed declared state =>
    declared = .scalar kind && state.known?.all fun payload => payload.kind = .scalar kind
  | .collection shape element, .typed declared state =>
    (Ty.collection shape element).wireTy = .ok declared &&
      state.known?.all fun payload =>
        payload.kind = .collection shape && payload.children.all fun child => element.fits child
  | .bare _, .typed _ _ => false
  | .custom _ base _, .typed declared state => base.fits (.typed declared state)

lemma fits_untyped (ty : Ty ρ) : ty.fits .untyped = true := by
  cases ty <;> rfl

lemma fits_scalar_iff {kind : Scalar.Kind} {declared : Wire.Ty} {state : State Wire.Payload} :
    (Ty.scalar kind : Ty ρ).fits (.typed declared state) = true ↔
      declared = .scalar kind ∧ ∀ payload, state = .known payload →
        payload.kind = .scalar kind := by
  cases state <;> simp [fits, State.known?]

lemma fits_collection_iff {shape : Shape} {element : Ty ρ} {declared : Wire.Ty}
    {state : State Wire.Payload} :
    (Ty.collection shape element).fits (.typed declared state) = true ↔
      (Ty.collection shape element).wireTy = .ok declared ∧ ∀ payload, state = .known payload →
        payload.kind = .collection shape ∧
          ∀ child ∈ payload.children, element.fits child = true := by
  cases state <;> simp [fits, State.known?]

lemma fits_custom (name : String) (base : Ty ρ) (validation : Validation ρ) (input : Wire.Value) :
    (Ty.custom name base validation).fits input = base.fits input := by
  cases input with
  | untyped => rw [fits_untyped, fits_untyped]
  | typed declared state => rfl

/-- A value that fits a type and declares a type declares the wire type of the type. -/
lemma wireTy_of_fits {ty : Ty ρ} {declared : Wire.Ty} {state : State Wire.Payload}
    (h : ty.fits (.typed declared state) = true) : ty.wireTy = .ok declared := by
  induction ty with
  | scalar kind =>
    obtain ⟨rfl, -⟩ := fits_scalar_iff.1 h
    rfl
  | collection shape element => exact (fits_collection_iff.1 h).1
  | bare shape => simp [fits] at h
  | custom name base validation ih => exact ih h

/-- A value of the right type that is not known fits, whatever the type. -/
lemma fits_of_known?_eq_none {ty : Ty ρ} {wire : Wire.Ty} {state : State Wire.Payload}
    (hwire : ty.wireTy = .ok wire) (hstate : state.known? = none) :
    ty.fits (.typed wire state) = true := by
  have hnone : ∀ payload, state ≠ .known payload := by
    rintro payload rfl
    cases hstate
  induction ty with
  | scalar kind =>
    cases hwire
    exact fits_scalar_iff.2 ⟨rfl, fun payload h => absurd h (hnone payload)⟩
  | collection shape element =>
    exact fits_collection_iff.2 ⟨hwire, fun payload h => absurd h (hnone payload)⟩
  | bare shape => cases hwire
  | custom name base validation ih => exact ih hwire

/-! ## Interpretation -/

/-- The state of a wire value as one of a scalar of a kind. -/
def scalarState (kind : Scalar.Kind) : State Wire.Payload → State kind.Content
  | .null => .null
  | .unknown => .unknown
  | .known (.scalar content) => (kind.unwrap? content).elim .null .known
  | .known _ => .null

/-- The typed collection whose elements are made of the children of a payload. -/
def collected (shape : Shape) (element : Ty ρ) (read : Wire.Value → Value ρ)
    (payload : Wire.Payload) : Value ρ :=
  match shape with
  | .list => .list (some element) (.known (payload.children.map read))
  | .map => .map (some element) (.known (Keyed.mapValues read payload.entries))
  | .set => .set (some element) (.known (payload.children.map read))

/-- A part of a collection is what one of the children was read as. -/
lemma exists_child_of_mem_parts {shape : Shape} {element : Ty ρ} {read : Wire.Value → Value ρ}
    {payload : Wire.Payload} {part : Value ρ}
    (h : part ∈ (collected shape element read payload).parts) :
    ∃ child ∈ payload.children, read child = part := by
  cases shape with
  | list => exact List.mem_map.1 h
  | map =>
    obtain ⟨entry, hentry, rfl⟩ := List.mem_map.1 h
    obtain ⟨given, hgiven, rfl⟩ := List.mem_map.1 hentry
    exact ⟨given.2, Wire.Payload.mem_children_of_mem_entries hgiven, rfl⟩
  | set => exact List.mem_map.1 h

/-- The typed value that a wire value stands for.  Nothing is checked; what does not fit is taken as
null. -/
def interpret : Ty ρ → Wire.Value → Value ρ
  | .scalar kind, input => .scalar kind (scalarState kind input.state)
  | .collection shape element, input =>
    match input.state with
    | .null => .nullCollection shape (some element)
    | .unknown => .unknownCollection shape (some element)
    | .known payload => collected shape element (fun child => element.interpret child) payload
  | .bare shape, _ => .nullCollection shape none
  | .custom name base validation, input => .custom name base validation (base.interpret input)

/-- The type of an interpretation is the type by which it was made. -/
lemma ty_interpret (ty : Ty ρ) (input : Wire.Value) : (ty.interpret input).ty = ty := by
  cases ty with
  | scalar kind => rfl
  | collection shape element =>
    rw [interpret]
    cases input.state <;> cases shape <;> rfl
  | bare shape => cases shape <;> rfl
  | custom name base validation => rfl

/-- A part of what a value stands for under a collection type is what one of its children stands
for. -/
lemma exists_child_of_mem_parts_interpret {shape : Shape} {element : Ty ρ} {input : Wire.Value}
    {part : Value ρ} (h : part ∈ ((Ty.collection shape element).interpret input).parts) :
    ∃ child ∈ input.children, element.interpret child = part := by
  rcases input with _ | ⟨declared, _ | _ | payload⟩
  · cases shape <;> cases h
  · cases shape <;> cases h
  · cases shape <;> cases h
  · exact exists_child_of_mem_parts h

/-! ## Conversion -/

lemma determine_eq_ok_iff {expected : Wire.Ty} {target : String} {input : Wire.Value}
    {state : State Wire.Payload} :
    determine expected target input = .ok state ↔
      input = .untyped ∧ state = .null ∨ input = .typed expected state := by
  cases input with
  | untyped => simp [determine, eq_comm]
  | typed ty s =>
    rw [determine]
    split
    next h => simp [h]
    next h => simp [h]

lemma ofWire_eq_ok_iff {α : Type} {result : Except Wire.Error α} {a : α} :
    ofWire result = .ok a ↔ result = .ok a :=
  mapError_eq_ok_iff

lemma asScalar_known_eq_ok_iff {kind : Scalar.Kind} {wire : Wire.Ty} {payload : Wire.Payload}
    {content : kind.Content} :
    (Wire.Value.known wire payload).asScalar kind = .ok content ↔
      payload = .scalar (kind.wrap content) := by
  cases payload with
  | scalar scalar =>
    rw [Wire.Payload.scalar.injEq, ← Scalar.unwrap?_eq_some_iff]
    cases h : kind.unwrap? scalar <;>
      simp [Wire.Value.asScalar, Wire.Value.payload?, Wire.Value.known, Wire.Value.state,
        State.known?, h]
  | _ => simp [Wire.Value.asScalar, Wire.Value.payload?, Wire.Value.known, Wire.Value.state,
      State.known?]

lemma asList_known_eq_ok_iff {wire : Wire.Ty} {payload : Wire.Payload} {items : List Wire.Value} :
    (Wire.Value.known wire payload).asList = .ok items ↔
      payload.kind = .collection .list ∧ items = payload.children := by
  cases payload <;>
    simp [Wire.Value.asList, Wire.Value.payload?, Wire.Value.known, Wire.Value.state, State.known?,
      Wire.Payload.kind, eq_comm]

lemma asSet_known_eq_ok_iff {wire : Wire.Ty} {payload : Wire.Payload} {members : List Wire.Value} :
    (Wire.Value.known wire payload).asSet = .ok members ↔
      payload.kind = .collection .set ∧ members = payload.children := by
  cases payload <;>
    simp [Wire.Value.asSet, Wire.Value.payload?, Wire.Value.known, Wire.Value.state, State.known?,
      Wire.Payload.kind, eq_comm]

lemma asMap_known_eq_ok_iff {wire : Wire.Ty} {payload : Wire.Payload}
    {entries : List (String × Wire.Value)} :
    (Wire.Value.known wire payload).asMap = .ok entries ↔
      payload.kind = .collection .map ∧ entries = payload.entries := by
  cases payload <;>
    simp [Wire.Value.asMap, Wire.Value.payload?, Wire.Value.known, Wire.Value.state, State.known?,
      Wire.Payload.kind, Wire.Payload.entries, eq_comm]

lemma payload?_of_asList {input : Wire.Value} {items : List Wire.Value}
    (h : input.asList = .ok items) : input.payload? = some (.list items) := by
  rcases input with _ | ⟨ty, _ | _ | _ | _ | _ | _⟩ <;> cases h
  rfl

lemma payload?_of_asSet {input : Wire.Value} {members : List Wire.Value}
    (h : input.asSet = .ok members) : input.payload? = some (.set members) := by
  rcases input with _ | ⟨ty, _ | _ | _ | _ | _ | _⟩ <;> cases h
  rfl

lemma payload?_of_asMap {input : Wire.Value} {entries : List (String × Wire.Value)}
    (h : input.asMap = .ok entries) : input.payload? = some (.map entries) := by
  rcases input with _ | ⟨ty, _ | _ | _ | _ | _ | _⟩ <;> cases h
  rfl

lemma children_of_asList {input : Wire.Value} {items : List Wire.Value}
    (h : input.asList = .ok items) : input.children = items :=
  Wire.Value.children_of_payload? (payload?_of_asList h)

lemma children_of_asSet {input : Wire.Value} {members : List Wire.Value}
    (h : input.asSet = .ok members) : input.children = members :=
  Wire.Value.children_of_payload? (payload?_of_asSet h)

lemma children_of_asMap {input : Wire.Value} {entries : List (String × Wire.Value)}
    (h : input.asMap = .ok entries) : input.children = entries.map Prod.snd :=
  Wire.Value.children_of_payload? (payload?_of_asMap h)

lemma kind_scalar_iff {kind : Scalar.Kind} {payload : Wire.Payload} :
    payload.kind = .scalar kind ↔ ∃ content, payload = .scalar (kind.wrap content) := by
  constructor
  · intro h
    obtain ⟨scalar, rfl, rfl⟩ := Wire.Payload.eq_scalar_of_kind h
    cases scalar <;> exact ⟨_, rfl⟩
  · rintro ⟨content, rfl⟩
    cases kind <;> rfl

lemma scalarState_wrap {kind : Scalar.Kind} (content : kind.Content) :
    scalarState kind (.known (.scalar (kind.wrap content))) = .known content := by
  rw [scalarState, Scalar.Kind.unwrap?_wrap, Option.elim_some]

lemma convert_scalar_eq_ok_iff {kind : Scalar.Kind} {input : Wire.Value} {walk : Walk}
    {value : Value ρ} :
    (Ty.scalar kind).convert input walk = .ok value ↔
      (Ty.scalar kind : Ty ρ).fits input = true ∧ value = (Ty.scalar kind).interpret input := by
  rw [convert, bind_eq_ok_iff]
  constructor
  · rintro ⟨state, hstate, hvalue⟩
    rcases determine_eq_ok_iff.1 hstate with ⟨rfl, rfl⟩ | rfl
    · cases hvalue
      exact ⟨rfl, rfl⟩
    · rcases state with _ | _ | payload
      · cases hvalue
        exact ⟨fits_scalar_iff.2 ⟨rfl, by simp⟩, rfl⟩
      · cases hvalue
        exact ⟨fits_scalar_iff.2 ⟨rfl, by simp⟩, rfl⟩
      · obtain ⟨content, hcontent, hpure⟩ := bind_eq_ok_iff.1 hvalue
        obtain rfl := asScalar_known_eq_ok_iff.1 (ofWire_eq_ok_iff.1 hcontent)
        obtain rfl := pure_eq_ok_iff.1 hpure
        refine ⟨fits_scalar_iff.2 ⟨rfl, ?_⟩, by rw [interpret, Wire.Value.state, scalarState_wrap]⟩
        rintro payload ⟨⟩
        exact kind_scalar_iff.2 ⟨content, rfl⟩
  · rintro ⟨hfits, rfl⟩
    rcases input with _ | ⟨declared, state⟩
    · exact ⟨.null, rfl, rfl⟩
    · obtain ⟨rfl, hpayload⟩ := fits_scalar_iff.1 hfits
      refine ⟨state, determine_eq_ok_iff.2 (Or.inr rfl), ?_⟩
      rcases state with _ | _ | payload
      · rfl
      · rfl
      · obtain ⟨content, rfl⟩ := kind_scalar_iff.1 (hpayload payload rfl)
        rw [interpret, Wire.Value.state, scalarState_wrap]
        exact bind_eq_ok_iff.2
          ⟨content, ofWire_eq_ok_iff.2 (asScalar_known_eq_ok_iff.2 rfl), rfl⟩

/-- The content of a known collection is converted when the walk may enter it, the payload has the
kind of the collection, and every child is converted. -/
lemma convert_known_eq_ok_iff {shape : Shape} {element : Ty ρ} {wire : Wire.Ty}
    {payload : Wire.Payload} {walk : Walk} {value : Value ρ} {P : Wire.Value → Walk → Prop}
    (hwire : (Ty.collection shape element).wireTy = .ok wire)
    (helement : ∀ child below converted, element.convert child below = .ok converted ↔
      P child below ∧ converted = element.interpret child) :
    (Ty.collection shape element).convert (.known wire payload) walk = .ok value ↔
      ∃ below, walk.descend = .ok below ∧ payload.kind = .collection shape ∧
        (∀ child ∈ payload.children, P child below) ∧
        value = collected shape element element.interpret payload := by
  have hdetermine (target : String) :
      determine wire target (.known wire payload) = .ok (.known payload) :=
    determine_eq_ok_iff.2 (Or.inr rfl)
  simp only [convert, hwire, hdetermine, bind_eq_ok_iff, Except.ok.injEq, exists_eq_left']
  refine exists_congr fun below => and_congr_right fun _ => ?_
  cases shape with
  | list =>
    simp only [bind_eq_ok_iff, ofWire_eq_ok_iff, asList_known_eq_ok_iff, pure_eq_ok_iff,
      mapM_eq_ok_iff_map fun child => helement child below]
    constructor
    · rintro ⟨_, ⟨hkind, rfl⟩, _, ⟨hchildren, rfl⟩, rfl⟩
      exact ⟨hkind, hchildren, rfl⟩
    · rintro ⟨hkind, hchildren, rfl⟩
      exact ⟨_, ⟨hkind, rfl⟩, _, ⟨hchildren, rfl⟩, rfl⟩
  | map =>
    simp only [bind_eq_ok_iff, ofWire_eq_ok_iff, asMap_known_eq_ok_iff, pure_eq_ok_iff,
      Keyed.traverse_eq_ok_iff_mapValues fun child => helement child below]
    constructor
    · rintro ⟨_, ⟨hkind, rfl⟩, _, ⟨hchildren, rfl⟩, rfl⟩
      rw [Wire.Payload.map_snd_entries hkind] at hchildren
      exact ⟨hkind, hchildren, rfl⟩
    · rintro ⟨hkind, hchildren, rfl⟩
      rw [← Wire.Payload.map_snd_entries hkind] at hchildren
      exact ⟨_, ⟨hkind, rfl⟩, _, ⟨hchildren, rfl⟩, rfl⟩
  | set =>
    simp only [bind_eq_ok_iff, ofWire_eq_ok_iff, asSet_known_eq_ok_iff, pure_eq_ok_iff,
      mapM_eq_ok_iff_map fun child => helement child below]
    constructor
    · rintro ⟨_, ⟨hkind, rfl⟩, _, ⟨hchildren, rfl⟩, rfl⟩
      exact ⟨hkind, hchildren, rfl⟩
    · rintro ⟨hkind, hchildren, rfl⟩
      exact ⟨_, ⟨hkind, rfl⟩, _, ⟨hchildren, rfl⟩, rfl⟩

/-- A value that does not fit a collection type by the type that it declares is refused. -/
lemma wireTy_of_convert {shape : Shape} {element : Ty ρ} {declared : Wire.Ty}
    {state : State Wire.Payload} {walk : Walk} {value : Value ρ}
    (h : (Ty.collection shape element).convert (.typed declared state) walk = .ok value) :
    (Ty.collection shape element).wireTy = .ok declared := by
  rw [convert] at h
  obtain ⟨wire, hwire, hrest⟩ := bind_eq_ok_iff.1 h
  obtain ⟨_, hstate, -⟩ := bind_eq_ok_iff.1 hrest
  rcases determine_eq_ok_iff.1 hstate with ⟨hnone, -⟩ | hsame
  · cases hnone
  · cases hsame
    exact hwire

lemma isCollection_of_fits_scalar {kind : Scalar.Kind} {input : Wire.Value}
    (h : (Ty.scalar kind : Ty ρ).fits input = true) : input.isCollection = false := by
  rcases input with _ | ⟨declared, _ | _ | payload⟩
  · rfl
  · rfl
  · rfl
  · obtain ⟨content, rfl⟩ := kind_scalar_iff.1 ((fits_scalar_iff.1 h).2 payload rfl)
    rfl

/-- A value of the right type that is not known is converted without entering it. -/
lemma convert_of_known?_eq_none {shape : Shape} {element : Ty ρ} {wire : Wire.Ty}
    {state : State Wire.Payload} {walk : Walk}
    (hwire : (Ty.collection shape element).wireTy = .ok wire) (hstate : state.known? = none) :
    (Ty.collection shape element).convert (.typed wire state) walk =
      .ok ((Ty.collection shape element).interpret (.typed wire state)) := by
  have hdetermine (target : String) : determine wire target (.typed wire state) = .ok state :=
    determine_eq_ok_iff.2 (Or.inr rfl)
  rw [convert, hwire, interpret]
  simp only [bind, Except.bind, hdetermine]
  rcases state with _ | _ | payload
  · rfl
  · rfl
  · cases hstate

/-- Conversion of a known value of the wire type of a collection type, given what conversion to the
element type does. -/
lemma convert_known_eq_ok_iff_fits {shape : Shape} {element : Ty ρ} {wire : Wire.Ty}
    {payload : Wire.Payload} {walk : Walk} {value : Value ρ}
    (hwire : (Ty.collection shape element).wireTy = .ok wire)
    (helement : ∀ child below converted, element.convert child below = .ok converted ↔
      (element.isComplete = true ∧ element.fits child = true ∧ child.nesting ≤ below.room) ∧
        converted = element.interpret child) :
    (Ty.collection shape element).convert (.known wire payload) walk = .ok value ↔
      ((Ty.collection shape element).isComplete = true ∧
        (Ty.collection shape element).fits (.known wire payload) = true ∧
        (Wire.Value.known wire payload).nesting ≤ walk.room) ∧
        value = (Ty.collection shape element).interpret (.known wire payload) := by
  have hcomplete : (Ty.collection shape element).isComplete = true := isComplete_iff.2 ⟨wire, hwire⟩
  have hcollection (hkind : payload.kind = .collection shape) :
      (Wire.Value.known wire payload).isCollection = true :=
    Wire.Payload.isCollection_of_kind hkind
  rw [convert_known_eq_ok_iff hwire helement]
  constructor
  · rintro ⟨below, hbelow, hkind, hchildren, rfl⟩
    have hroom := (Walk.descend_eq_ok_iff.1 hbelow).1
    refine ⟨⟨hcomplete, fits_collection_iff.2 ⟨hwire, ?_⟩, ?_⟩, rfl⟩
    · rintro _ ⟨⟩
      exact ⟨hkind, fun child hchild => (hchildren child hchild).2.1⟩
    · rw [Wire.Value.nesting_le_iff (hcollection hkind), ← Walk.room_of_descend hbelow]
      exact ⟨hroom, fun child hchild => (hchildren child hchild).2.2⟩
  · rintro ⟨⟨-, hfits, hnesting⟩, rfl⟩
    obtain ⟨hkind, hchildren⟩ := (fits_collection_iff.1 hfits).2 payload rfl
    obtain ⟨hroom, hbelow⟩ := (Wire.Value.nesting_le_iff (hcollection hkind)).1 hnesting
    have hdescend := Walk.descend_eq_ok_iff.2 ⟨hroom, rfl⟩
    rw [← Walk.room_of_descend hdescend] at hbelow
    exact ⟨_, hdescend, hkind,
      fun child hchild => ⟨hcomplete, hchildren child hchild, hbelow child hchild⟩, rfl⟩

/-- Conversion to a collection type, given what conversion to the element type does. -/
lemma convert_collection_eq_ok_iff {shape : Shape} {element : Ty ρ} {input : Wire.Value}
    {walk : Walk} {value : Value ρ}
    (helement : ∀ child below converted, element.convert child below = .ok converted ↔
      (element.isComplete = true ∧ element.fits child = true ∧ child.nesting ≤ below.room) ∧
        converted = element.interpret child) :
    (Ty.collection shape element).convert input walk = .ok value ↔
      ((Ty.collection shape element).isComplete = true ∧
        (Ty.collection shape element).fits input = true ∧ input.nesting ≤ walk.room) ∧
        value = (Ty.collection shape element).interpret input := by
  rcases input with _ | ⟨declared, state⟩
  · -- without a type the value is null, but the wire type of the type is asked for first
    rw [convert, bind_eq_ok_iff, isComplete_iff]
    constructor
    · rintro ⟨wire, hwire, hvalue⟩
      obtain rfl := pure_eq_ok_iff.1 hvalue
      exact ⟨⟨⟨wire, hwire⟩, rfl, Nat.zero_le _⟩, rfl⟩
    · rintro ⟨⟨⟨wire, hwire⟩, -⟩, rfl⟩
      exact ⟨wire, hwire, rfl⟩
  by_cases hwire : (Ty.collection shape element).wireTy = .ok declared
  · cases hstate : state.known? with
    | none =>
      have hnesting : (Wire.Value.typed declared state).nesting = 0 := by
        cases state <;> first | rfl | cases hstate
      rw [convert_of_known?_eq_none hwire hstate, Except.ok.injEq, eq_comm]
      simp [isComplete_iff, hwire, fits_of_known?_eq_none hwire hstate, hnesting]
    | some payload =>
      obtain rfl : state = .known payload := by cases state <;> simp_all [State.known?]
      exact convert_known_eq_ok_iff_fits hwire helement
  · -- with another declared type neither side holds, whatever the state
    constructor
    · intro h
      exact absurd (wireTy_of_convert h) hwire
    · rintro ⟨⟨-, hfits, -⟩, -⟩
      exact absurd (fits_collection_iff.1 hfits).1 hwire

/-- Conversion succeeds when the type is complete, the value fits it and the walk has room for the
nesting of the value; it gives the interpretation of the value. -/
theorem convert_eq_ok_iff {ty : Ty ρ} {input : Wire.Value} {walk : Walk} {value : Value ρ} :
    ty.convert input walk = .ok value ↔
      (ty.isComplete = true ∧ ty.fits input = true ∧ input.nesting ≤ walk.room) ∧
        value = ty.interpret input := by
  induction ty generalizing input walk value with
  | scalar kind =>
    rw [convert_scalar_eq_ok_iff]
    constructor
    · rintro ⟨hfits, rfl⟩
      exact ⟨⟨rfl, hfits, by
        simp [Wire.Value.nesting_of_not_isCollection (isCollection_of_fits_scalar hfits)]⟩, rfl⟩
    · rintro ⟨⟨-, hfits, -⟩, rfl⟩
      exact ⟨hfits, rfl⟩
  | collection shape element ih => exact convert_collection_eq_ok_iff fun _ _ _ => ih
  | bare shape => simp [convert, isComplete]
  | custom name base validation ih =>
    rw [convert, bind_eq_ok_iff, fits_custom, interpret, isComplete]
    constructor
    · rintro ⟨inner, hinner, hvalue⟩
      obtain ⟨h, rfl⟩ := ih.1 hinner
      exact ⟨h, (pure_eq_ok_iff.1 hvalue).symm⟩
    · rintro ⟨h, rfl⟩
      exact ⟨_, ih.2 ⟨h, rfl⟩, rfl⟩

/-- What is converted somewhere on a walk is converted to the same by itself, under the limit that
is left there. -/
lemma ofWireValue_of_convert {ty : Ty ρ} {input : Wire.Value} {walk : Walk} {value : Value ρ}
    (h : ty.convert input walk = .ok value) : ty.ofWireValue input ⟨walk.room⟩ = .ok value := by
  obtain ⟨⟨hcomplete, hfits, hroom⟩, rfl⟩ := convert_eq_ok_iff.1 h
  exact convert_eq_ok_iff.2 ⟨⟨hcomplete, hfits, by rwa [Walk.room_start]⟩, rfl⟩

/-! ## Values of one form -/

/-- Whether a value fits a type is a matter of its form. -/
lemma fits_iff_of_sameForm {ty : Ty ρ} {a b : Wire.Value} (h : Wire.Value.SameForm a b) :
    ty.fits a = true ↔ ty.fits b = true := by
  induction ty generalizing a b with
  | scalar kind =>
    cases h with
    | @known declared p q arranged hkind hchildren hperm => simp [fits_scalar_iff, hkind]
    | _ => rfl
  | collection shape element ih =>
    cases h with
    | @known declared p q arranged hkind hchildren hperm =>
      have hfits := Wire.Value.SameForm.forall_children_congr
        (P := fun child => element.fits child = true) hchildren hperm fun _ _ _ hxy => ih hxy
      simp [fits_collection_iff, hkind, hfits]
    | _ => rfl
  | bare shape => cases h <;> rfl
  | custom name base validation ih =>
    rw [fits_custom, fits_custom]
    exact ih h

/-- Whether conversion succeeds is a matter of the form of a value. -/
lemma convert_isOk_iff_of_sameForm {ty : Ty ρ} {a b : Wire.Value} (h : Wire.Value.SameForm a b)
    (walk : Walk) :
    (∃ value, ty.convert a walk = .ok value) ↔ ∃ value, ty.convert b walk = .ok value := by
  simp only [convert_eq_ok_iff, exists_and_left, exists_eq, and_true,
    fits_iff_of_sameForm h, h.nesting_eq]

end Ty

end TypedAttributes.Attribute
