/-
# What values can be built

Typed values are built from scalars, nulls and unknowns by the checked collections, by wrapping in
custom types and by conversion, and read out of one another.  The type of a value is an open one and
nothing in it ties the elements of a collection to its element type; it is the operations that never
leave a collection whose elements have another type, or a map with two entries under one key.

Only the checked collections compare types.  Conversion does not, and it need not: what it puts into
a collection has exactly the element type, and that equals itself because a type that is not
complete converts nothing.  Wrapping compares nothing either, so a wrapped value may have another
type than the base; this breaks no collection, as a wrapper is no collection and shows its own type
to the one it is in.
-/
import TypedAttributes.Attribute.Checked
import TypedAttributes.Proofs.FirstOccurrence
import TypedAttributes.Proofs.Attribute.Conversion
import TypedAttributes.Proofs.Attribute.DecodeEncode
import TypedAttributes.Proofs.Attribute.EqualityLaws

namespace TypedAttributes.Attribute

namespace Value

variable {ρ : Type}

/-! ## Checked collections -/

lemma checkElement_eq_ok_iff {shape : Shape} {element : Ty ρ} {position : String}
    {value : Value ρ} :
    checkElement shape element position value = .ok () ↔ value.ty.equal element = true := by
  rw [checkElement]
  split
  next h => exact ⟨fun _ => h, fun _ => rfl⟩
  next h => exact ⟨nofun, fun heq => absurd heq h⟩

lemma checkElements_eq_ok_iff {shape : Shape} {element : Ty ρ} {position : Nat}
    {values : List (Value ρ)} :
    checkElements shape element position values = .ok () ↔
      ∀ value ∈ values, value.ty.equal element = true := by
  induction values generalizing position with
  | nil => simp [checkElements]
  | cons value rest ih =>
    rw [checkElements, bind_eq_ok_iff, List.forall_mem_cons]
    constructor
    · rintro ⟨⟨⟩, hvalue, hrest⟩
      exact ⟨checkElement_eq_ok_iff.1 hvalue, ih.1 hrest⟩
    · rintro ⟨hvalue, hrest⟩
      exact ⟨(), checkElement_eq_ok_iff.2 hvalue, ih.2 hrest⟩

/-- Adding entries is comparing the types of all their values in order and then putting the
entries. -/
lemma addEntries_eq (element : Ty ρ) (built entries : List (String × Value ρ)) :
    addEntries element built entries =
      (entries.forM fun entry => checkElement .map element (Text.quoted entry.1) entry.2) >>=
        fun _ => pure (Keyed.putAll built entries) := by
  induction entries generalizing built with
  | nil => rfl
  | cons entry rest ih =>
    obtain ⟨key, value⟩ := entry
    simp only [addEntries, ih, List.forM_eq_forM, List.forM_cons, bind_assoc]
    rfl

lemma addEntries_eq_ok_iff {element : Ty ρ} {built entries result : List (String × Value ρ)} :
    addEntries element built entries = .ok result ↔
      (∀ value ∈ entries.map Prod.snd, value.ty.equal element = true) ∧
        result = Keyed.putAll built entries := by
  have hcheck (u : Unit) :
      (entries.forM fun entry => checkElement .map element (Text.quoted entry.1) entry.2) = .ok u ↔
        (∀ value ∈ entries.map Prod.snd, value.ty.equal element = true) ∧ u = () := by
    rw [forM_eq_ok_iff, and_iff_left rfl]
    simp only [checkElement_eq_ok_iff, List.forall_mem_map]
  rw [addEntries_eq]
  exact bind_pure_eq_ok_iff hcheck

lemma newList_eq_ok_iff {element : Ty ρ} {items : List (Value ρ)} {value : Value ρ} :
    newList element items = .ok value ↔
      (∀ item ∈ items, item.ty.equal element = true) ∧
        value = .list (some element) (.known items) := by
  have hcheck (u : Unit) : checkElements .list element 0 items = .ok u ↔
      (∀ item ∈ items, item.ty.equal element = true) ∧ u = () := by
    rw [checkElements_eq_ok_iff, and_iff_left rfl]
  exact bind_pure_eq_ok_iff hcheck

lemma newSet_eq_ok_iff {element : Ty ρ} {members : List (Value ρ)} {value : Value ρ} :
    newSet element members = .ok value ↔
      (∀ member ∈ members, member.ty.equal element = true) ∧
        value = .set (some element) (.known members) := by
  have hcheck (u : Unit) : checkElements .set element 0 members = .ok u ↔
      (∀ member ∈ members, member.ty.equal element = true) ∧ u = () := by
    rw [checkElements_eq_ok_iff, and_iff_left rfl]
  exact bind_pure_eq_ok_iff hcheck

lemma newMap_eq_ok_iff {element : Ty ρ} {entries : List (String × Value ρ)} {value : Value ρ} :
    newMap element entries = .ok value ↔
      (∀ part ∈ entries.map Prod.snd, part.ty.equal element = true) ∧
        value = .map (some element) (.known (Keyed.putAll [] entries)) := by
  rw [newMap]
  exact bind_pure_eq_ok_iff fun _ => addEntries_eq_ok_iff

/-! ## Homogeneous values -/

/-- Whether a value is a known collection. -/
def isKnownCollection : Value ρ → Bool
  | .list _ (.known _) => true
  | .map _ (.known _) => true
  | .set _ (.known _) => true
  | _ => false

/-- Whether a value is another one or somewhere in it. -/
inductive Within (node : Value ρ) : Value ρ → Prop
  /-- A value itself. -/
  | root : Within node node
  /-- What is in a part. -/
  | inside {value part : Value ρ} (hpart : part ∈ value.parts) (h : Within node part) :
      Within node value

lemma within_iff {node value : Value ρ} :
    Within node value ↔ node = value ∨ ∃ part ∈ value.parts, Within node part := by
  constructor
  · rintro (_ | ⟨hpart, h⟩)
    · exact Or.inl rfl
    · exact Or.inr ⟨_, hpart, h⟩
  · rintro (rfl | ⟨part, hpart, h⟩)
    · exact .root
    · exact .inside hpart h

lemma Within.trans {inner node value : Value ρ} (hinner : Within inner node)
    (hnode : Within node value) : Within inner value := by
  induction hnode with
  | root => exact hinner
  | inside hpart _ ih => exact .inside hpart ih

/-- The elements of a collection have its element type and occur under distinct keys. -/
structure Homogeneous (collection : Value ρ) : Prop where
  elements : ∃ element, collection.element? = some element ∧
    ∀ part ∈ collection.elements, part.ty.equal element = true
  keys : Keyed.Distinct collection.entries

/-- Every known collection in a value is homogeneous. -/
def HomogeneousWithin (value : Value ρ) : Prop :=
  ∀ node, Within node value → node.isKnownCollection = true → node.Homogeneous

lemma homogeneousWithin_iff {value : Value ρ} :
    value.HomogeneousWithin ↔
      (value.isKnownCollection = true → value.Homogeneous) ∧
        ∀ part ∈ value.parts, part.HomogeneousWithin := by
  constructor
  · exact fun h => ⟨h value .root, fun part hpart node hnode => h node (.inside hpart hnode)⟩
  · rintro ⟨hvalue, hparts⟩ node hnode
    obtain rfl | ⟨part, hpart, hnode⟩ := within_iff.1 hnode
    · exact hvalue
    · exact hparts part hpart node hnode

namespace HomogeneousWithin

lemma scalar (kind : Scalar.Kind) (state : State kind.Content) :
    (Value.scalar kind state : Value ρ).HomogeneousWithin :=
  homogeneousWithin_iff.2 ⟨nofun, nofun⟩

lemma nullCollection (shape : Shape) (element : Option (Ty ρ)) :
    (nullCollection shape element).HomogeneousWithin := by
  cases shape <;> exact homogeneousWithin_iff.2 ⟨nofun, nofun⟩

lemma unknownCollection (shape : Shape) (element : Option (Ty ρ)) :
    (unknownCollection shape element).HomogeneousWithin := by
  cases shape <;> exact homogeneousWithin_iff.2 ⟨nofun, nofun⟩

lemma custom (name : String) (base : Ty ρ) (validation : Validation ρ) {inner : Value ρ}
    (h : inner.HomogeneousWithin) : (Value.custom name base validation inner).HomogeneousWithin :=
  homogeneousWithin_iff.2 ⟨nofun, List.forall_mem_singleton.2 h⟩

lemma list {element : Ty ρ} {items : List (Value ρ)}
    (hty : ∀ item ∈ items, item.ty.equal element = true)
    (hitems : ∀ item ∈ items, item.HomogeneousWithin) :
    (Value.list (some element) (.known items)).HomogeneousWithin :=
  homogeneousWithin_iff.2 ⟨fun _ => ⟨⟨element, rfl, hty⟩, .nil⟩, hitems⟩

lemma set {element : Ty ρ} {members : List (Value ρ)}
    (hty : ∀ member ∈ members, member.ty.equal element = true)
    (hmembers : ∀ member ∈ members, member.HomogeneousWithin) :
    (Value.set (some element) (.known members)).HomogeneousWithin :=
  homogeneousWithin_iff.2 ⟨fun _ => ⟨⟨element, rfl, hty⟩, .nil⟩, hmembers⟩

lemma map {element : Ty ρ} {entries : List (String × Value ρ)} (hkeys : Keyed.Distinct entries)
    (hty : ∀ part ∈ entries.map Prod.snd, part.ty.equal element = true)
    (hparts : ∀ part ∈ entries.map Prod.snd, part.HomogeneousWithin) :
    (Value.map (some element) (.known entries)).HomogeneousWithin :=
  homogeneousWithin_iff.2 ⟨fun _ => ⟨⟨element, rfl, hty⟩, hkeys⟩, hparts⟩

lemma null (ty : Ty ρ) : (null ty).HomogeneousWithin := by
  induction ty with
  | scalar kind => exact .scalar kind .null
  | collection shape element => exact .nullCollection shape (some element)
  | bare shape => exact .nullCollection shape none
  | custom name base validation ih => exact .custom name base validation ih

lemma unknown (ty : Ty ρ) : (unknown ty).HomogeneousWithin := by
  induction ty with
  | scalar kind => exact .scalar kind .unknown
  | collection shape element => exact .unknownCollection shape (some element)
  | bare shape => exact .unknownCollection shape none
  | custom name base validation ih => exact .custom name base validation ih

end HomogeneousWithin

/-! ## Converted values -/

/-- What holds of every node holds of whatever is in the value. -/
lemma all_iff_within {test : Value ρ → Bool} {value : Value ρ} :
    value.all test = true ↔ ∀ node, Within node value → test node = true := by
  induction value using Value.induction with
  | step value ih =>
    rw [all_iff]
    constructor
    · rintro ⟨hvalue, hparts⟩ node hnode
      obtain rfl | ⟨part, hpart, hnode⟩ := within_iff.1 hnode
      · exact hvalue
      · exact (ih part hpart).1 (hparts part hpart) node hnode
    · exact fun h => ⟨h value .root, fun part hpart =>
        (ih part hpart).2 fun node hnode => h node (.inside hpart hnode)⟩

/-- Whatever is in the interpretation of a value under a complete type is one itself, of something
in the value. -/
lemma exists_interpret_of_within {ty : Ty ρ} {input : Wire.Value} {node : Value ρ}
    (hcomplete : ty.isComplete = true) (h : Within node (ty.interpret input)) :
    ∃ (ty' : Ty ρ) (input' : Wire.Value), ty'.isComplete = true ∧
      (input.keysAscend = true → input'.keysAscend = true) ∧ node = ty'.interpret input' := by
  induction ty generalizing input with
  | scalar kind =>
    obtain rfl | ⟨part, hpart, -⟩ := within_iff.1 h
    · exact ⟨_, _, hcomplete, id, rfl⟩
    · cases hpart
  | collection shape element ih =>
    obtain rfl | ⟨part, hpart, hnode⟩ := within_iff.1 h
    · exact ⟨_, _, hcomplete, id, rfl⟩
    obtain ⟨child, hchild, rfl⟩ := Ty.exists_child_of_mem_parts_interpret hpart
    obtain ⟨ty', input', hcomplete', hkeys, rfl⟩ := ih hcomplete hnode
    exact ⟨ty', input', hcomplete', fun h => hkeys ((Wire.Value.all_iff.1 h).2 child hchild), rfl⟩
  | bare shape => cases hcomplete
  | custom name base validation ih =>
    obtain rfl | ⟨part, hpart, hnode⟩ := within_iff.1 h
    · exact ⟨_, _, hcomplete, id, rfl⟩
    · obtain rfl := List.mem_singleton.1 hpart
      exact ih hcomplete hnode

/-- An interpretation carries a complete type. -/
lemma carriesComplete_interpret {ty : Ty ρ} (hcomplete : ty.isComplete = true)
    (input : Wire.Value) : (ty.interpret input).carriesComplete = true := by
  cases ty with
  | scalar kind => rfl
  | collection shape element =>
    rcases input with _ | ⟨declared, _ | _ | payload⟩ <;> cases shape <;> exact hcomplete
  | bare shape => cases hcomplete
  | custom name base validation => exact hcomplete

/-- Conversion gives values that carry complete types only. -/
lemma typesComplete_of_ofWireValue {ty : Ty ρ} {input : Wire.Value} {limits : Limits}
    {value : Value ρ} (h : ty.ofWireValue input limits = .ok value) :
    value.typesComplete = true := by
  obtain ⟨⟨hcomplete, -, -⟩, rfl⟩ := Ty.convert_eq_ok_iff.1 h
  refine all_iff_within.2 fun node hnode => ?_
  obtain ⟨ty', input', hcomplete', -, rfl⟩ := exists_interpret_of_within hcomplete hnode
  exact carriesComplete_interpret hcomplete' input'

/-- A collection made of the children of a payload is homogeneous. -/
lemma homogeneous_collected {shape : Shape} {element : Ty ρ} {wire : Wire.Ty}
    {payload : Wire.Payload} (hcomplete : element.isComplete = true)
    (hkeys : (Wire.Value.known wire payload).keysAscend = true) :
    (Ty.collected shape element element.interpret payload).Homogeneous := by
  have hself (child : Wire.Value) : (element.interpret child).ty.equal element = true := by
    rw [Ty.ty_interpret, Ty.equal_self]
    exact hcomplete
  have hdistinct : Keyed.Distinct payload.entries :=
    Keyed.distinct_of_ascending (ascending_of_keysAscend hkeys)
  cases shape with
  | list => exact ⟨⟨element, rfl, List.forall_mem_map.2 fun child _ => hself child⟩, .nil⟩
  | map =>
    refine ⟨⟨element, rfl,
      List.forall_mem_map.2 (List.forall_mem_map.2 fun entry _ => hself entry.2)⟩, ?_⟩
    change Keyed.Distinct (Keyed.mapValues _ _)
    rwa [Keyed.Distinct, Keyed.keys_mapValues]
  | set => exact ⟨⟨element, rfl, List.forall_mem_map.2 fun child _ => hself child⟩, .nil⟩

lemma homogeneous_interpret {ty : Ty ρ} {input : Wire.Value} (hcomplete : ty.isComplete = true)
    (hkeys : input.keysAscend = true) (hknown : (ty.interpret input).isKnownCollection = true) :
    (ty.interpret input).Homogeneous := by
  cases ty with
  | scalar kind => cases hknown
  | collection shape element =>
    rcases input with _ | ⟨declared, _ | _ | payload⟩
    · cases shape <;> cases hknown
    · cases shape <;> cases hknown
    · cases shape <;> cases hknown
    · have helement : element.isComplete = true := hcomplete
      exact homogeneous_collected helement hkeys
  | bare shape => cases hcomplete
  | custom name base validation => cases hknown

lemma homogeneousWithin_of_ofWireValue {ty : Ty ρ} {input : Wire.Value} {limits : Limits}
    {value : Value ρ} (hkeys : input.keysAscend = true)
    (h : ty.ofWireValue input limits = .ok value) : value.HomogeneousWithin := by
  obtain ⟨⟨hcomplete, -, -⟩, rfl⟩ := Ty.convert_eq_ok_iff.1 h
  intro node hnode hknown
  obtain ⟨ty', input', hcomplete', hkeys', rfl⟩ := exists_interpret_of_within hcomplete hnode
  exact homogeneous_interpret hcomplete' (hkeys' hkeys) hknown

/-! ## Building values -/

/-- The values that can be built, by any sequence of the operations that there are. -/
inductive Constructed : Value ρ → Prop
  /-- A scalar in any state. -/
  | scalar (kind : Scalar.Kind) (state : State kind.Content) : Constructed (.scalar kind state)
  /-- The null value of a type, whether its collections have element types or not. -/
  | null (ty : Ty ρ) : Constructed (.null ty)
  /-- The unknown value of a type. -/
  | unknown (ty : Ty ρ) : Constructed (.unknown ty)
  /-- A checked list. -/
  | list {element : Ty ρ} {items : List (Value ρ)} {value : Value ρ}
      (hitems : ∀ item ∈ items, Constructed item) (h : newList element items = .ok value) :
      Constructed value
  /-- A checked set. -/
  | set {element : Ty ρ} {members : List (Value ρ)} {value : Value ρ}
      (hmembers : ∀ member ∈ members, Constructed member) (h : newSet element members = .ok value) :
      Constructed value
  /-- A checked map. -/
  | map {element : Ty ρ} {entries : List (String × Value ρ)} {value : Value ρ}
      (hvalues : ∀ part ∈ entries.map Prod.snd, Constructed part)
      (h : newMap element entries = .ok value) : Constructed value
  /-- A value wrapped in a custom type, of whatever base. -/
  | custom (name : String) (base : Ty ρ) (validation : Validation ρ) {inner : Value ρ}
      (hinner : Constructed inner) : Constructed (.custom name base validation inner)
  /-- A value that was converted from a wire value. -/
  | converted {ty : Ty ρ} {input : Wire.Value} {limits : Limits} {value : Value ρ}
      (hkeys : input.keysAscend = true) (h : ty.ofWireValue input limits = .ok value) :
      Constructed value
  /-- What a collection type hands out for a collection. -/
  | presented (ty : Ty ρ) {collection : Value ρ} (h : Constructed collection) :
      Constructed (present ty collection)
  /-- What is read out of a value: an element of a collection, the value inside of a wrapper. -/
  | part {value part : Value ρ} (h : Constructed value) (hpart : part ∈ value.parts) :
      Constructed part

/-- Every operation keeps all known collections homogeneous. -/
lemma homogeneousWithin_of_constructed {value : Value ρ} (h : Constructed value) :
    value.HomogeneousWithin := by
  induction h with
  | scalar kind state => exact .scalar kind state
  | null ty => exact .null ty
  | unknown ty => exact .unknown ty
  | list _ h ih =>
    obtain ⟨hty, rfl⟩ := newList_eq_ok_iff.1 h
    exact .list hty ih
  | set _ h ih =>
    obtain ⟨hty, rfl⟩ := newSet_eq_ok_iff.1 h
    exact .set hty ih
  | @map element entries _ _ h ih =>
    obtain ⟨hty, rfl⟩ := newMap_eq_ok_iff.1 h
    -- the entries of the map are among the given ones, of which some may have been replaced
    have hgiven : ∀ part ∈ (Keyed.putAll [] entries).map Prod.snd, part ∈ entries.map Prod.snd :=
      List.forall_mem_map.2 fun entry hentry =>
        List.mem_map_of_mem ((Keyed.mem_of_mem_putAll hentry).resolve_right List.not_mem_nil)
    exact .map (Keyed.distinct_putAll .nil) (fun part hpart => hty part (hgiven part hpart))
      fun part hpart => ih part (hgiven part hpart)
  | custom name base validation _ ih => exact .custom name base validation ih
  | converted hkeys h => exact homogeneousWithin_of_ofWireValue hkeys h
  | presented ty _ ih => exact ih
  | part _ hpart ih => exact (homogeneousWithin_iff.1 ih).2 _ hpart

/-! ## Building collections again -/

/-- A known collection that carries an element type, built again with every element checked. -/
def rebuild? : Value ρ → Option (Except Error (Value ρ))
  | .list (some element) (.known items) => some (newList element items)
  | .map (some element) (.known entries) => some (newMap element entries)
  | .set (some element) (.known members) => some (newSet element members)
  | _ => none

/-- A homogeneous collection comes back when it is built again. -/
lemma rebuild?_of_homogeneous {collection : Value ρ} (hknown : collection.isKnownCollection = true)
    (h : collection.Homogeneous) : collection.rebuild? = some (.ok collection) := by
  obtain ⟨⟨element, helement, hty⟩, hkeys⟩ := h
  rcases collection with _ | ⟨_ | _, _ | _ | items⟩ | ⟨_ | _, _ | _ | entries⟩ |
    ⟨_ | _, _ | _ | members⟩ | _ <;> cases hknown <;> cases helement
  · exact congrArg some (newList_eq_ok_iff.2 ⟨hty, rfl⟩)
  · have hput : Keyed.putAll [] entries = entries := Keyed.putAll_of_distinct hkeys
    exact congrArg some (newMap_eq_ok_iff.2 ⟨hty, by rw [hput]⟩)
  · exact congrArg some (newSet_eq_ok_iff.2 ⟨hty, rfl⟩)

end Value

open Value in
/-- In a value that was built by any sequence of operations, every known collection at every depth
has an element type to which the types of its elements are equal, and no key of a map occurs twice.
Every known collection in a converted value can be built again from its own elements, and is equal
to what it was unless there is a `nan` in it. -/
theorem homogeneous_of_constructed :
    (∀ value : Value ρ, Constructed value → ∀ node, Within node value →
      node.isKnownCollection = true →
      (∃ element, node.element? = some element ∧
        ∀ part ∈ node.elements, part.ty.equal element = true) ∧ Keyed.Distinct node.entries) ∧
      ∀ (ty : Ty ρ) (input : Wire.Value) (limits : Limits) (value : Value ρ),
        input.keysAscend = true →
        ty.ofWireValue input limits = .ok value →
          ∀ node, Within node value → node.isKnownCollection = true →
            ∃ rebuilt, node.rebuild? = some (.ok rebuilt) ∧
              (node.nanFree = true → rebuilt.equal node = true) := by
  constructor
  · intro value hvalue node hnode hknown
    obtain ⟨helements, hkeys⟩ := homogeneousWithin_of_constructed hvalue node hnode hknown
    exact ⟨helements, hkeys⟩
  · intro ty input limits value hkeys hvalue node hnode hknown
    have hhomogeneous := homogeneousWithin_of_ofWireValue hkeys hvalue node hnode hknown
    refine ⟨node, rebuild?_of_homogeneous hknown hhomogeneous, fun hnan => ?_⟩
    -- conversion gives complete types only, so nothing but a `nan` keeps the collection from
    -- equalling itself
    refine (equal_self_iff node).2 ⟨hnan, all_iff_within.2 fun inner hinner => ?_⟩
    exact all_iff_within.1 (typesComplete_of_ofWireValue hvalue) inner (hinner.trans hnode)

/-- Names in order. -/
def Ty.roster : Ty Empty := .collection .list (.scalar .string)

/-- A name and a missing one, as a wire value. -/
def wireGuests : Wire.Value := .list (.scalar .string) [.scalar (.string "ann"), .untyped]

/-- The same as a typed value. -/
def Value.guests : Value Empty :=
  .list (some (.scalar .string)) (.known [.scalar .string (.known "ann"), .scalar .string .null])

/-- Two rosters by day. -/
def Value.rosters : Value Empty :=
  .map (some Ty.roster) (.known [("tue", guests), ("mon", .null Ty.roster)])

open Value in
/-- A converted roster is entered into a map in place of an unknown one, and the map wrapped in a
type of truth values.  The map in the wrapper is homogeneous, and the roster can be built again. -/
theorem homogeneous_of_constructed_rosters :
    let wrapped := Value.custom "Sealed" (.scalar .bool) .none rosters
    wireGuests.keysAscend = true ∧ Ty.roster.ofWireValue wireGuests ⟨1⟩ = .ok guests ∧
      newMap Ty.roster [("tue", .unknown Ty.roster), ("mon", .null Ty.roster), ("tue", guests)] =
        .ok rosters ∧
      Constructed wrapped ∧ Within rosters wrapped ∧ rosters.isKnownCollection = true ∧
      ((∃ element, rosters.element? = some element ∧
        ∀ part ∈ rosters.elements, part.ty.equal element = true) ∧ Keyed.Distinct rosters.entries) ∧
      ∃ rebuilt, guests.rebuild? = some (.ok rebuilt) ∧ rebuilt.equal guests = true := by
  intro wrapped
  have hkeys : wireGuests.keysAscend = true := by decide
  have hconverted : Ty.roster.ofWireValue wireGuests ⟨1⟩ = .ok guests := rfl
  have hmap :
      newMap Ty.roster [("tue", .unknown Ty.roster), ("mon", .null Ty.roster), ("tue", guests)] =
      .ok rosters := rfl
  have hwrapped : Constructed wrapped := by
    refine .custom _ _ _ (.map ?_ hmap)
    simp only [List.map_cons, List.map_nil, List.forall_mem_cons]
    exact ⟨.unknown _, .null _, .converted hkeys hconverted, nofun⟩
  have hwithin : Within rosters wrapped := .inside List.mem_cons_self .root
  obtain ⟨rebuilt, hrebuilt, hequal⟩ :=
    homogeneous_of_constructed.2 Ty.roster wireGuests ⟨1⟩ guests hkeys hconverted guests .root rfl
  exact ⟨hkeys, hconverted, hmap, hwrapped, hwithin, rfl,
    homogeneous_of_constructed.1 wrapped hwrapped rosters hwithin rfl, rebuilt, hrebuilt,
      hequal (by decide)⟩

end TypedAttributes.Attribute
