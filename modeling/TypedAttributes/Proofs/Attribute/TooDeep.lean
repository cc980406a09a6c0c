/-
# What validation says of a value that is nested too deep

Conversion and validation walk down the same value under the same limit, but they do not enter the
same collections.  Conversion enters every known one.  The validator of a set does too, as it
converts the members in order to address them.  The validator of a list or a map enters it only in
order to hand its children on, so it stays out if the element type has no validator.

So of a value that is fully known, and that only the limit keeps from being converted, validation
reports that it is nested too deep, with one exception: if there is no set in the type and the
innermost list or map is the only one past the limit, nothing would be done in it, and nothing is
reported.
-/
import TypedAttributes.Proofs.Attribute.DepthLimit
import TypedAttributes.Proofs.Attribute.Leaves

namespace TypedAttributes.Attribute

variable {ρ : Type}

/-! ## Values with more nesting than room -/

/-- A collection that is nested too deep cannot be entered, or has a child that is nested too deep
for the room that is left below. -/
lemma exists_child_of_lt_nesting {value : Wire.Value} (h : value.isCollection = true) {room : Nat}
    (hroom : room < value.nesting) (hpos : 0 < room) :
    ∃ child ∈ value.children, room - 1 < child.nesting := by
  by_contra hnone
  simp only [not_exists, not_and, not_lt] at hnone
  exact absurd ((Wire.Value.nesting_le_iff h).2 ⟨hpos, hnone⟩) (Nat.not_le_of_lt hroom)

namespace Ty

/-- What fits a complete type and is nested too deep is refused for that. -/
lemma convert_of_room_lt_nesting {ty : Ty ρ} {input : Wire.Value} {walk : Walk}
    (hcomplete : ty.isComplete = true) (hfits : ty.fits input = true)
    (hroom : walk.room < input.nesting) :
    ty.convert input walk = .error (.depthExceeded walk.maxDepth) := by
  -- there is a limit that leaves room enough, and the one in force cuts that conversion short
  have hwide : ty.convert input ⟨walk.maxDepth + (input.nesting + walk.depth), walk.depth⟩ =
      .ok (ty.interpret input) := by
    refine convert_eq_ok_iff.2 ⟨⟨hcomplete, hfits, ?_⟩, rfl⟩
    exact Nat.le_sub_of_add_le (Nat.le_add_left _ _)
  have hle : walk.maxDepth ≤ walk.maxDepth + (input.nesting + walk.depth) := Nat.le_add_right _ _
  refine (convert_cutAt hle ty input walk.depth).resolve_right fun hsame => ?_
  have hnesting := (convert_eq_ok_iff.1 (hsame.symm.trans hwide)).1.2.2
  exact absurd hnesting (Nat.not_le_of_lt hroom)

/-- A value that fits a collection type and has any nesting is a known collection. -/
lemma exists_known_of_nesting_pos {shape : Shape} {element : Ty ρ} {input : Wire.Value}
    (hfits : (collection shape element).fits input = true) (hpos : 0 < input.nesting) :
    ∃ declared payload, input = .known declared payload ∧ declared.kind = .collection shape ∧
      payload.kind = .collection shape ∧ ∀ child ∈ payload.children, element.fits child = true := by
  rcases input with _ | ⟨declared, _ | _ | payload⟩
  · cases hpos
  · cases hpos
  · cases hpos
  · obtain ⟨hwire, hpayload⟩ := fits_collection_iff.1 hfits
    obtain ⟨wire, -, rfl⟩ := wireTy_collection_eq_ok_iff.1 hwire
    exact ⟨_, payload, rfl, rfl, hpayload payload rfl⟩

/-! ## Findings about values that are nested too deep -/

/-- Whether a set occurs in a type. -/
def hasSet : Ty ρ → Bool
  | .scalar _ => false
  | .collection .set _ => true
  | .collection _ element => element.hasSet
  | .bare shape => shape = .set
  | .custom _ base _ => base.hasSet

lemma hasSet_collection {shape : Shape} (hshape : shape ≠ .set) (element : Ty ρ) :
    (collection shape element).hasSet = element.hasSet := by
  cases shape with
  | set => exact absurd rfl hshape
  | _ => rfl

end Ty

namespace Validator

variable {path : Path ρ} {walk below : Walk}

lemma enter_of_room_eq_zero {inside : Walk → Diagnostics ρ} (h : walk.room = 0) :
    enter path walk inside = [.nestingTooDeep path (.depthExceeded walk.maxDepth)] := by
  have hfull : walk.descend = .error (.depthExceeded walk.maxDepth) :=
    if_pos (Nat.sub_eq_zero_iff_le.1 h)
  rw [enter, hfull]

end Validator

namespace Ty

variable {meaning : ρ → Validator ρ} {declared : Wire.Ty} {payload : Wire.Payload} {element : Ty ρ}
  {path : Path ρ} {walk below : Walk}

/-- A type without custom types in it has a validator unless it is a scalar. -/
lemma validator?_eq_none_iff {ty : Ty ρ} (hfree : ty.customFree = true) :
    ty.validator? meaning = none ↔ ∃ kind, ty = .scalar kind := by
  rcases ty with kind | ⟨_ | _ | _, element⟩ | ⟨_ | _ | _⟩ | _
  case custom => cases hfree
  all_goals simp [validator?]

/-- The validator of a list or a map stays out of it if there is none for the elements. -/
lemma findings_of_validator?_eq_none {shape : Shape} (hshape : shape ≠ .set)
    (hkind : declared.kind = .collection shape) (hpayload : payload.kind = .collection shape)
    (helement : element.validator? meaning = none) :
    (collection shape element).findings meaning (.known declared payload) path walk = [] := by
  cases shape with
  | set => exact absurd rfl hshape
  | list =>
    rw [Wire.Payload.eq_list_of_kind hpayload]
    refine (Validator.list_of_known hkind).trans ?_
    rw [helement, Option.elim_none]
  | map =>
    rw [Wire.Payload.eq_map_of_kind hpayload]
    refine (Validator.map_of_known hkind).trans ?_
    rw [helement, Option.elim_none]

/-- A collection that has to be entered and cannot be is reported. -/
lemma findings_of_room_eq_zero {shape : Shape} (hkind : declared.kind = .collection shape)
    (hpayload : payload.kind = .collection shape)
    (hentered : shape = .set ∨ element.validator? meaning ≠ none) (hroom : walk.room = 0) :
    (collection shape element).findings meaning (.known declared payload) path walk =
      [.nestingTooDeep path (.depthExceeded walk.maxDepth)] := by
  cases shape with
  | list =>
    obtain ⟨validator, helement⟩ := Option.ne_none_iff_exists'.1 (hentered.resolve_left nofun)
    rw [Wire.Payload.eq_list_of_kind hpayload]
    refine (Validator.list_of_known hkind).trans ?_
    rw [helement, Option.elim_some, Validator.enter_of_room_eq_zero hroom]
  | map =>
    obtain ⟨validator, helement⟩ := Option.ne_none_iff_exists'.1 (hentered.resolve_left nofun)
    rw [Wire.Payload.eq_map_of_kind hpayload]
    refine (Validator.map_of_known hkind).trans ?_
    rw [helement, Option.elim_some, Validator.enter_of_room_eq_zero hroom]
  | set =>
    rw [Wire.Payload.eq_set_of_kind hpayload]
    exact (Validator.set_of_known hkind).trans (Validator.enter_of_room_eq_zero hroom)

/-- What is found about a list or a map that is entered is what is found about its fully known
children. -/
lemma exists_findings_entered {shape : Shape} (hshape : shape ≠ .set)
    (hkind : declared.kind = .collection shape) (hpayload : payload.kind = .collection shape)
    (hwalk : walk.descend = .ok below) :
    ∃ step : Nat → Path.Step ρ,
      (collection shape element).findings meaning (.known declared payload) path walk =
        Wire.gather payload.children fun i child =>
          element.findings meaning child (path.extend (step i)) below := by
  cases shape with
  | set => exact absurd rfl hshape
  | list =>
    rw [Wire.Payload.eq_list_of_kind hpayload]
    exact ⟨.index, Validator.list_known_eq_gather hkind hwalk⟩
  | map =>
    rw [Wire.Payload.eq_map_of_kind hpayload]
    exact ⟨fun i => .key (Validator.keyAt payload.entries i),
      Validator.map_known_eq_gather hkind hwalk⟩

/-- A fully known member that is refused for its depth is reported. -/
lemma tooDeep_mem_findings_set {child : Wire.Value} {limit : Nat}
    (hkind : declared.kind = .collection .set) (hpayload : payload.kind = .collection .set)
    (hwalk : walk.descend = .ok below) (hchild : child ∈ payload.children)
    (hknown : child.isFullyKnown = true)
    (hconvert : element.convert child below = .error (.depthExceeded limit)) :
    .nestingTooDeep path (.depthExceeded limit) ∈
      (collection .set element).findings meaning (.known declared payload) path walk := by
  obtain ⟨i, hi⟩ := List.mem_iff_getElem?.1 hchild
  have hfindings : (collection .set element).findings meaning (.known declared payload) path walk =
      Wire.gather payload.children fun i member =>
        Validator.member element.convert (element.validator? meaning) path below member
          (payload.children.drop (i + 1)) := by
    rw [Wire.Payload.eq_set_of_kind hpayload]
    exact (Validator.set_known hkind hwalk).trans Wire.flatten_mapIdx_eq_gather
  rw [hfindings]
  refine Wire.mem_gather.2 ⟨i, child, hi, hknown, ?_⟩
  rw [Validator.member, hconvert]
  exact List.mem_cons_self

/-- What fits a type, is fully known and nested too deep is reported, if there is a set in the type
or more than one level of it lies past the limit. -/
lemma exists_tooDeep_mem_findings {ty : Ty ρ} {input : Wire.Value} {walk : Walk}
    (hfree : ty.customFree = true) (hcomplete : ty.isComplete = true)
    (hfits : ty.fits input = true) (hknown : input.isFullyKnown = true)
    (hroom : walk.room < input.nesting) (hentered : ty.hasSet = true ∨ walk.room + 1 < ty.levels)
    (path : Path ρ) :
    ∃ place, .nestingTooDeep place (.depthExceeded walk.maxDepth) ∈
      ty.findings meaning input path walk := by
  induction ty generalizing input walk path with
  | scalar kind =>
    have hlevels := nesting_le_levels hfits
    exact absurd hroom (by rw [levels] at hlevels; omega)
  | collection shape element ih =>
    obtain ⟨declared, payload, rfl, hkind, hpayload, hchildren⟩ :=
      exists_known_of_nesting_pos hfits (Nat.zero_lt_of_lt hroom)
    have helementFree : element.customFree = true := hfree
    have hnodes := (Wire.Value.isFullyKnown_iff.1 hknown).2
    by_cases hfull : walk.room = 0
    · have helement : shape = .set ∨ element.validator? meaning ≠ none := by
        by_cases hset : shape = .set
        · exact Or.inl hset
        refine Or.inr fun hnone => ?_
        obtain ⟨kind, rfl⟩ := (validator?_eq_none_iff helementFree).1 hnone
        rw [hasSet_collection hset] at hentered
        simp [hasSet, levels] at hentered
      rw [findings_of_room_eq_zero hkind hpayload helement hfull]
      exact ⟨path, List.mem_singleton_self _⟩
    · have hpos : 0 < walk.room := Nat.pos_of_ne_zero hfull
      have hwalk := Walk.descend_eq_ok_iff.2 ⟨hpos, rfl⟩
      have hbelow := Walk.room_of_descend hwalk
      have hcollection : (Wire.Value.known declared payload).isCollection = true :=
        Wire.Payload.isCollection_of_kind hpayload
      obtain ⟨child, hchild, hdeep⟩ := exists_child_of_lt_nesting hcollection hroom hpos
      rw [← hbelow] at hdeep
      by_cases hset : shape = .set
      · subst hset
        refine ⟨path, tooDeep_mem_findings_set hkind hpayload hwalk hchild (hnodes child hchild) ?_⟩
        exact convert_of_room_lt_nesting hcomplete (hchildren child hchild) hdeep
      · obtain ⟨i, hi⟩ := List.mem_iff_getElem?.1 hchild
        obtain ⟨step, hfindings⟩ := exists_findings_entered hset hkind hpayload hwalk
        rw [hasSet_collection hset, levels] at hentered
        -- a level has been left, and so has a level of the room
        have hentered' : element.hasSet = true ∨ Walk.room _ + 1 < element.levels :=
          hentered.imp_right fun h => by rw [hbelow]; omega
        obtain ⟨place, hplace⟩ := ih helementFree hcomplete (hchildren child hchild)
          (hnodes child hchild) hdeep hentered' (path.extend (step i))
        rw [hfindings]
        exact ⟨place, Wire.mem_gather.2 ⟨i, child, hi, hnodes child hchild, hplace⟩⟩
  | bare shape => cases hcomplete
  | custom name base validation => cases hfree

/-- Nothing is found where there is no set in the type and no more than one level of it lies past
the limit. -/
lemma findings_eq_nil_of_levels {ty : Ty ρ} {input : Wire.Value} {walk : Walk}
    (hfree : ty.customFree = true) (hset : ty.hasSet = false) (hfits : ty.fits input = true)
    (hlevels : ty.levels ≤ walk.room + 1) (path : Path ρ) :
    ty.findings meaning input path walk = [] := by
  induction ty generalizing input walk path with
  | scalar kind => rfl
  | collection shape element ih =>
    have hshape : shape ≠ .set := by
      rintro rfl
      cases hset
    rw [hasSet_collection hshape] at hset
    rcases input with _ | ⟨declared, state⟩
    · cases shape <;> rfl
    obtain ⟨hwire, hcontent⟩ := fits_collection_iff.1 hfits
    obtain ⟨wire, -, rfl⟩ := wireTy_collection_eq_ok_iff.1 hwire
    have hkind : (Wire.Ty.collection shape wire).kind = .collection shape := rfl
    rcases state with _ | _ | payload
    · exact findings_of_known?_eq_none hkind rfl path walk
    · exact findings_of_known?_eq_none hkind rfl path walk
    obtain ⟨hpayload, hchildren⟩ := hcontent payload rfl
    cases helement : element.validator? meaning with
    | none => exact findings_of_validator?_eq_none hshape hkind hpayload helement
    | some validator =>
      have hpos : 0 < element.levels := by
        rcases element with _ | _ | _ | _
        · cases helement
        · exact Nat.succ_pos _
        · exact Nat.succ_pos _
        · cases hfree
      rw [levels] at hlevels
      have hwalk := Walk.descend_eq_ok_iff.2 ⟨show 0 < walk.room by omega, rfl⟩
      have hbelow := Walk.room_of_descend hwalk
      obtain ⟨step, hfindings⟩ := exists_findings_entered hshape hkind hpayload hwalk
      refine hfindings.trans (List.eq_nil_iff_forall_not_mem.2 fun finding hfinding => ?_)
      obtain ⟨i, child, hi, -, hmem⟩ := Wire.mem_gather.1 hfinding
      rw [ih hfree hset (hchildren child (List.mem_of_getElem? hi)) (by rw [hbelow]; omega)] at hmem
      cases hmem
  | bare shape =>
    rcases input with _ | ⟨declared, state⟩
    · cases shape <;> rfl
    · cases hfits
  | custom name base validation => cases hfree

/-! ## Validation of what the limit refuses -/

/-- A fully known value that is converted under some limit and refused for its depth under another
is, under that other limit, an error for validation as well: it is nested too deep.  The exception
are types of lists and maps alone that have exactly one level more than the limit allows; about
values of these, of which only the innermost collections lie past the limit, there is nothing to
report. -/
theorem validate?_of_depthExceeded (meaning : ρ → Validator ρ) {ty : Ty ρ}
    (hty : ty.shape?.isSome = true) (hfree : ty.customFree = true) {input : Wire.Value}
    (hknown : input.isFullyKnown = true)
    (hconverts : ∃ enough value, ty.ofWireValue input enough = .ok value) {limits : Limits}
    (hdeep : ∃ limit, ty.ofWireValue input limits = .error (.depthExceeded limit)) (path : Path ρ) :
    ∃ diagnostics, ty.validate? meaning input path limits = some diagnostics ∧
      (¬(ty.hasSet = false ∧ ty.levels = limits.maxDepth + 1) → diagnostics.hasError = true ∧
        ∃ place, .nestingTooDeep place (.depthExceeded limits.maxDepth) ∈ diagnostics) ∧
      (ty.hasSet = false ∧ ty.levels = limits.maxDepth + 1 → diagnostics = []) := by
  obtain ⟨enough, value, hvalue⟩ := hconverts
  obtain ⟨limit, hlimit⟩ := hdeep
  obtain ⟨hcomplete, hfits, -⟩ := (convert_eq_ok_iff.1 hvalue).1
  have hroom : (Walk.start limits).room < input.nesting := by
    refine Nat.lt_of_not_le fun hle => ?_
    cases hlimit.symm.trans (convert_eq_ok_iff.2 ⟨⟨hcomplete, hfits, hle⟩, rfl⟩)
  have hlevels := hroom.trans_le (nesting_le_levels hfits)
  have hlimits := Walk.room_start limits
  refine ⟨_, validate?_eq_some_findings hty input path limits, fun hentered => ?_,
    fun ⟨hset, hlast⟩ => ?_⟩
  · have hentered' : ty.hasSet = true ∨ (Walk.start limits).room + 1 < ty.levels := by
      cases hset : ty.hasSet with
      | true => exact Or.inl rfl
      | false =>
        have hne : ty.levels ≠ limits.maxDepth + 1 := fun hlast => hentered ⟨hset, hlast⟩
        exact Or.inr (by omega)
    obtain ⟨place, hplace⟩ :=
      exists_tooDeep_mem_findings hfree hcomplete hfits hknown hroom hentered' path
    exact ⟨List.any_eq_true.2 ⟨_, hplace, rfl⟩, place, hplace⟩
  · exact findings_eq_nil_of_levels hfree hset hfits (by omega) path

/-- Sets of names in rows. -/
def nameSetRows : Ty Empty := .collection .list (.collection .set (.scalar .string))

/-- A row of one empty set. -/
def emptySetRow : Wire.Value :=
  .list (.collection .set (.scalar .string)) [.set (.scalar .string) []]

/-- A set past the limit is reported although it is empty. -/
theorem validate?_of_depthExceeded_emptySetRow :
    nameSetRows.shape?.isSome = true ∧ nameSetRows.customFree = true ∧
      emptySetRow.isFullyKnown = true ∧
      (∃ enough value, nameSetRows.ofWireValue emptySetRow enough = .ok value) ∧
      (∃ limit, nameSetRows.ofWireValue emptySetRow ⟨1⟩ = .error (.depthExceeded limit)) ∧
      ¬(nameSetRows.hasSet = false ∧ nameSetRows.levels = 1 + 1) ∧
      ∃ diagnostics, nameSetRows.validate? Empty.elim emptySetRow .root ⟨1⟩ = some diagnostics ∧
        diagnostics.hasError = true := by
  have hknown : emptySetRow.isFullyKnown = true := by decide
  have hconverts : ∃ enough value, nameSetRows.ofWireValue emptySetRow enough = .ok value :=
    ⟨⟨2⟩, _, rfl⟩
  have hdeep : ∃ limit, nameSetRows.ofWireValue emptySetRow ⟨1⟩ = .error (.depthExceeded limit) :=
    ⟨1, rfl⟩
  have hset : ¬(nameSetRows.hasSet = false ∧ nameSetRows.levels = 1 + 1) := by decide
  obtain ⟨diagnostics, hvalidate, hreported, -⟩ :=
    validate?_of_depthExceeded Empty.elim rfl rfl hknown hconverts hdeep .root
  exact ⟨rfl, rfl, hknown, hconverts, hdeep, hset, diagnostics, hvalidate, (hreported hset).1⟩

/-- A list of one name. -/
def oneName : Wire.Value := .list (.scalar .string) [.scalar (.string "a")]

/-- Under a limit of no collections a list of names is refused by conversion for its depth, and
validation finds no error in it. -/
theorem not_hasError_of_depthExceeded_oneName :
    let names : Ty Empty := .collection .list (.scalar .string)
    names.shape?.isSome = true ∧ names.customFree = true ∧ oneName.isFullyKnown = true ∧
      (∃ enough value, names.ofWireValue oneName enough = .ok value) ∧
      names.ofWireValue oneName ⟨0⟩ = .error (.depthExceeded 0) ∧
      ∃ diagnostics, names.validate? Empty.elim oneName .root ⟨0⟩ = some diagnostics ∧
        ¬ diagnostics.hasError = true := by
  intro names
  exact ⟨rfl, rfl, by decide, ⟨⟨1⟩, _, rfl⟩, rfl, [], rfl, nofun⟩

end Ty

end TypedAttributes.Attribute
