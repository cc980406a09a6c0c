/-
# Validation of what conversion accepts

Conversion and validation go through a value separately.  Conversion asks for the exact wire type at
every node and stops at the first fault; validation asks for the kind of known nodes only, passes
over children that are not fully known, and converts the members of sets once more, in order to
address them.

For types without custom types the two agree.  What conversion has accepted no validator has
anything to complain about, except that a set may hold a member more than once, which conversion
does not look at.  Of this the validators tell exactly: there is one finding for each place where a
fully known member of a set occurs again, and no other.

The argument goes level by level.  A validator gives one report for each child of a known value, and
a report on a child is made of what is found in the child and, in a set, of what is found by
comparing the child to the later members.  So the places are sorted by the child in which they lie,
or which they compare to later ones.
-/
import TypedAttributes.Proofs.EachOnce
import TypedAttributes.Proofs.Wire.Repetition
import TypedAttributes.Proofs.Attribute.Validation

namespace TypedAttributes.Wire.Repetition

/-- The number of the child to which a place belongs: the one through which the way to the set goes
or, in the set itself, the earlier of the two members. -/
def child (place : Repetition) : Nat :=
  match place.set with
  | [] => place.first
  | position :: _ => position

/-- The place as seen from a node of which the value is the child at a position. -/
def above (position : Nat) (place : Repetition) : Repetition :=
  ⟨position :: place.set, place.first, place.again⟩

lemma above_injective (position : Nat) : Function.Injective (above position) := by
  rintro ⟨way, i, j⟩ ⟨way', i', j'⟩ h
  cases h
  rfl

end TypedAttributes.Wire.Repetition

namespace TypedAttributes.Attribute

open Wire (Repetition)

variable {ρ : Type}

/-- Whether a finding tells of the member that occurs again at a place in a value. -/
def Diagnostic.TellsOf (value : Wire.Value) (place : Repetition) (finding : Diagnostic ρ) : Prop :=
  ∃ again address, value.RepeatsAt place again ∧ finding = .duplicateElement address again

/-- Whether a finding tells that the `n`-th member of the value itself occurs again. -/
def Diagnostic.TellsOfMember (value : Wire.Value) (n : Nat) (place : Repetition)
    (finding : Diagnostic ρ) : Prop :=
  (place.set = [] ∧ place.first = n) ∧ TellsOf value place finding

namespace Validator

open Diagnostic (TellsOf TellsOfMember)

/-! ## From the reports on children to a report on the value -/

variable {value child : Wire.Value} {n : Nat}

/-- What is told of a value through its child at a position is what is told of the child, and what
is told of the child as a member that occurs again later. -/
lemma tellsOf_child_iff (hchild : value.children[n]? = some child)
    (hknown : child.isFullyKnown = true) (place : Repetition) (finding : Diagnostic ρ) :
    ((∃ inner, place = inner.above n ∧ TellsOf child inner finding) ∨
        TellsOfMember value n place finding) ↔
      place.child = n ∧ TellsOf value place finding := by
  obtain ⟨_ | ⟨position, rest⟩, i, j⟩ := place
  · simp [TellsOfMember, Repetition.above, Repetition.child]
  constructor
  · rintro (⟨⟨way, i', j'⟩, heq, again, address, hrepeats, rfl⟩ | ⟨⟨hset, -⟩, -⟩)
    · cases heq
      exact ⟨rfl, again, address,
        Wire.Value.repeatsAt_below_iff.2 ⟨child, hchild, hknown, hrepeats⟩, rfl⟩
    · cases hset
  · rintro ⟨rfl, again, address, hrepeats, rfl⟩
    obtain ⟨child', hchild', -, hbelow⟩ := Wire.Value.repeatsAt_below_iff.1 hrepeats
    rw [Repetition.child] at hchild
    obtain rfl := Option.some.inj (hchild.symm.trans hchild')
    exact Or.inl ⟨⟨rest, i, j⟩, rfl, again, address, hbelow, rfl⟩

/-- Whatever is told of a value, it is told through a fully known child of it. -/
lemma exists_child_of_tellsOf {place : Repetition} {finding : Diagnostic ρ}
    (h : TellsOf value place finding) :
    ∃ child, value.children[place.child]? = some child ∧ child.isFullyKnown = true := by
  obtain ⟨again, address, hrepeats, rfl⟩ := h
  obtain ⟨_ | ⟨position, rest⟩, i, j⟩ := place
  · obtain ⟨members, first, hpayload, -, hfirst, -, hknown, -⟩ :=
      Wire.Value.repeatsAt_root_iff.1 hrepeats
    rw [Wire.Value.children_of_payload? hpayload, Wire.Payload.children_set]
    exact ⟨first, hfirst, hknown⟩
  · obtain ⟨child, hchild, hknown, -⟩ := Wire.Value.repeatsAt_below_iff.1 hrepeats
    exact ⟨child, hchild, hknown⟩

/-- Reports on the children of a value are together a report on the value, if each consists of a
report on the child and one on the later members that are equal to the child. -/
lemma eachOnce_flatten {reports : List (Diagnostics ρ)}
    (hlength : reports.length = value.children.length)
    (hreport : ∀ n child report, value.children[n]? = some child → reports[n]? = some report →
      ∃ inside own, report = (if child.isFullyKnown then inside ++ own else []) ∧
        (child.isFullyKnown = true → EachOnce (TellsOf child) inside ∧
          EachOnce (TellsOfMember value n) own)) :
    EachOnce (TellsOf value) reports.flatten := by
  refine EachOnce.flatten Repetition.child (TellsOf value) (fun n report hat => ?_)
    fun place finding htells => ?_
  · have hlt : n < value.children.length := hlength ▸ (List.getElem?_eq_some_iff.1 hat).1
    have hchild : value.children[n]? = some value.children[n] := List.getElem?_eq_getElem hlt
    obtain ⟨inside, own, rfl, hparts⟩ := hreport n _ report hchild hat
    cases hknown : value.children[n].isFullyKnown with
    | true =>
      obtain ⟨hinside, hown⟩ := hparts hknown
      refine ((hinside.rename (Repetition.above_injective n)).append hown ?_).congr
        (tellsOf_child_iff hchild hknown)
      rintro _ _ _ ⟨inner, rfl, -⟩ ⟨⟨hset, -⟩, -⟩
      cases hset
    | false =>
      -- the child is passed over, and rightly: whatever there is to tell is told of a fully known
      -- one
      refine EachOnce.nil ?_
      rintro place finding ⟨rfl, htells⟩
      obtain ⟨child, hchild', hknown'⟩ := exists_child_of_tellsOf htells
      obtain rfl := Option.some.inj (hchild.symm.trans hchild')
      rw [hknown] at hknown'
      cases hknown'
  · obtain ⟨child, hchild, -⟩ := exists_child_of_tellsOf htells
    rw [hlength]
    exact (List.getElem?_eq_some_iff.1 hchild).1

/-! ## The later members -/

/-- What tells that a member occurs again names one of the later members, which is equal to it. -/
lemma tellsOfMember_iff {members : List Wire.Value}
    (hpayload : value.payload? = some (.set members)) (hchild : members[n]? = some child)
    (hknown : child.isFullyKnown = true) (place : Repetition) (finding : Diagnostic ρ) :
    TellsOfMember value n place finding ↔
      ∃ k other address, place = ⟨[], n, n + 1 + k⟩ ∧ (members.drop (n + 1))[k]? = some other ∧
        (other.isFullyKnown && other.equal child) = true ∧
          finding = .duplicateElement address other := by
  constructor
  · rintro ⟨hroot, other, address, hrepeats, rfl⟩
    obtain ⟨k, rfl, hother, h⟩ :=
      (Wire.Value.repeatsAt_first_iff hpayload hchild hknown).1 ⟨hroot, hrepeats⟩
    exact ⟨k, other, address, rfl, hother, Bool.and_eq_true_iff.2 h, rfl⟩
  · rintro ⟨k, other, address, rfl, hother, h, rfl⟩
    obtain ⟨hroot, hrepeats⟩ := (Wire.Value.repeatsAt_first_iff hpayload hchild hknown).2
      ⟨k, rfl, hother, Bool.and_eq_true_iff.1 h⟩
    exact ⟨hroot, other, address, hrepeats, rfl⟩

/-- What is found by comparing a member of a set to the later ones. -/
lemma eachOnce_repeats {members : List Wire.Value} (hpayload : value.payload? = some (.set members))
    (hchild : members[n]? = some child) (hknown : child.isFullyKnown = true) (address : Path ρ) :
    EachOnce (TellsOfMember value n) (repeats address child (members.drop (n + 1))) := by
  refine EachOnce.congr ?_ fun place finding =>
    (tellsOfMember_iff hpayload hchild hknown place finding).symm
  rw [repeats_eq_flatten]
  -- a place is numbered by the later member that it names
  refine EachOnce.flatten (fun place => place.again - (n + 1)) _ (fun k report hat => ?_) ?_
  · rw [List.getElem?_map, Option.map_eq_some_iff] at hat
    obtain ⟨other, hother, rfl⟩ := hat
    split
    next h =>
      -- the report on this later member consists of one finding, so one place has to have its
      -- number
      refine EachOnce.single ⟨[], n, n + 1 + k⟩
        ⟨by simp, k, other, address, rfl, hother, h, rfl⟩ ?_
      rintro _ _ ⟨hnumber, k', _, _, rfl, -⟩
      obtain rfl : k' = k := by simpa using hnumber
      rfl
    next h =>
      refine EachOnce.nil ?_
      rintro _ _ ⟨hnumber, k', other', _, rfl, hother', h', -⟩
      obtain rfl : k' = k := by simpa using hnumber
      obtain rfl := Option.some.inj (hother.symm.trans hother')
      exact h h'
  · rintro _ _ ⟨k, other, _, rfl, hother, -⟩
    rw [List.length_map]
    simpa using (List.getElem?_eq_some_iff.1 hother).1

/-! ## Level by level -/

variable {declared : Wire.Ty} {path : Path ρ} {walk below : Walk} {element : Option (Validator ρ)}

/-- Nothing is told of the members of a value that is not a set. -/
lemma eachOnce_nil_of_kind {payload : Wire.Payload} (hpayload : value.payload? = some payload)
    (hkind : payload.kind ≠ .collection .set) :
    EachOnce (TellsOfMember value n) ([] : Diagnostics ρ) := by
  refine EachOnce.nil ?_
  rintro ⟨way, i, j⟩ finding ⟨⟨rfl, rfl⟩, again, address, hrepeats, rfl⟩
  obtain ⟨members, _, hset, -⟩ := Wire.Value.repeatsAt_root_iff.1 hrepeats
  obtain rfl := Option.some.inj (hpayload.symm.trans hset)
  exact hkind rfl

/-- There is nothing to tell of a value that is no known collection. -/
lemma eachOnce_nil_of_not_isCollection (h : value.isCollection = false) :
    EachOnce (TellsOf value) ([] : Diagnostics ρ) := by
  refine EachOnce.nil ?_
  rintro place finding ⟨again, address, hrepeats, -⟩
  exact Wire.Value.not_repeatsAt_of_not_isCollection h hrepeats

lemma eachOnce_list {found : List Wire.Value} (hkind : declared.kind = .collection .list)
    (hwalk : walk.descend = .ok below)
    (helement : ∀ item ∈ found, ∀ path,
      EachOnce (TellsOf item) (element.getD silent item path below)) :
    EachOnce (TellsOf (.known declared (.list found)))
      (list element (.known declared (.list found)) path walk) := by
  rw [list_known hkind hwalk]
  refine eachOnce_flatten List.length_mapIdx fun n item report hitem hreport => ?_
  replace hitem : found[n]? = some item := hitem
  rw [List.getElem?_mapIdx, hitem] at hreport
  cases hreport
  refine ⟨element.getD silent item (path.extend (.index n)) below, [], by rw [List.append_nil],
    fun _ => ⟨helement item (List.mem_of_getElem? hitem) _, eachOnce_nil_of_kind rfl ?_⟩⟩
  simp [Wire.Payload.kind]

lemma eachOnce_map {found : List (String × Wire.Value)} (hkind : declared.kind = .collection .map)
    (hwalk : walk.descend = .ok below)
    (helement : ∀ entry ∈ found, ∀ path,
      EachOnce (TellsOf entry.2) (element.getD silent entry.2 path below)) :
    EachOnce (TellsOf (.known declared (.map found)))
      (map element (.known declared (.map found)) path walk) := by
  rw [map_known hkind hwalk]
  refine eachOnce_flatten (by rw [List.length_map]; exact (List.length_map _).symm)
    fun n child report hchild hreport => ?_
  replace hchild : (found.map Prod.snd)[n]? = some child := hchild
  obtain ⟨entry, hentry, rfl⟩ := Option.map_eq_some_iff.1 (List.getElem?_map ▸ hchild)
  rw [List.getElem?_map, hentry] at hreport
  cases hreport
  refine ⟨element.getD silent entry.2 (path.extend (.key entry.1)) below, [],
    by rw [List.append_nil],
    fun _ => ⟨helement entry (List.mem_of_getElem? hentry) _, eachOnce_nil_of_kind rfl ?_⟩⟩
  simp [Wire.Payload.kind]

lemma eachOnce_set {convert : Wire.Value → Walk → Except Error (Value ρ)} {found : List Wire.Value}
    (hkind : declared.kind = .collection .set) (hwalk : walk.descend = .ok below)
    (hconvert : ∀ member ∈ found, ∃ converted, convert member below = .ok converted)
    (helement : ∀ member ∈ found, ∀ path,
      EachOnce (TellsOf member) (element.getD silent member path below)) :
    EachOnce (TellsOf (.known declared (.set found)))
      (set convert element (.known declared (.set found)) path walk) := by
  rw [set_known hkind hwalk]
  refine eachOnce_flatten List.length_mapIdx fun n value report hvalue hreport => ?_
  replace hvalue : found[n]? = some value := hvalue
  have hmem := List.mem_of_getElem? hvalue
  obtain ⟨converted, hconverted⟩ := hconvert value hmem
  rw [List.getElem?_mapIdx, hvalue, Option.map_some, member_of_convert hconverted] at hreport
  cases hreport
  exact ⟨_, _, rfl, fun hknown => ⟨helement value hmem _, eachOnce_repeats rfl hvalue hknown _⟩⟩

end Validator

namespace Ty

open Diagnostic (TellsOf)

/-- The findings about a known value of a collection type, given those about its children. -/
lemma eachOnce_findings_known {meaning : ρ → Validator ρ} {shape : Shape} {element : Ty ρ}
    {declared : Wire.Ty} {payload : Wire.Payload} {walk : Walk} {value : Value ρ}
    (hconvert : (Ty.collection shape element).convert (.known declared payload) walk = .ok value)
    (helement : ∀ child below converted path, element.convert child below = .ok converted →
      EachOnce (TellsOf child) (element.findings meaning child path below)) (path : Path ρ) :
    EachOnce (TellsOf (.known declared payload))
      ((Ty.collection shape element).findings meaning (.known declared payload) path walk) := by
  have hkind := kind_of_convert hconvert
  obtain ⟨below, hwalk, hpayload, hconverted⟩ := children_of_convert hconvert
  have hfindings (child : Wire.Value) (hchild : child ∈ payload.children) (path : Path ρ) :
      EachOnce (TellsOf child) (element.findings meaning child path below) := by
    obtain ⟨converted, h⟩ := hconverted child hchild
    exact helement child below converted path h
  cases shape with
  | list =>
    rw [Wire.Payload.eq_list_of_kind hpayload]
    exact Validator.eachOnce_list hkind hwalk hfindings
  | map =>
    rw [Wire.Payload.eq_map_of_kind hpayload]
    refine Validator.eachOnce_map hkind hwalk fun entry hentry => hfindings entry.2 ?_
    rw [← Wire.Payload.map_snd_entries hpayload]
    exact List.mem_map_of_mem hentry
  | set =>
    rw [Wire.Payload.eq_set_of_kind hpayload]
    exact Validator.eachOnce_set hkind hwalk hconverted hfindings

/-- What a type without custom types finds in a value that is converted to it are the members of
sets that occur again, each once. -/
lemma eachOnce_findings (meaning : ρ → Validator ρ) {ty : Ty ρ} (hfree : ty.customFree = true)
    {input : Wire.Value} {walk : Walk} {value : Value ρ}
    (hconvert : ty.convert input walk = .ok value) (path : Path ρ) :
    EachOnce (TellsOf input) (ty.findings meaning input path walk) := by
  induction ty generalizing input walk value path with
  | scalar kind =>
    have hfits := (convert_eq_ok_iff.1 hconvert).1.2.1
    exact Validator.eachOnce_nil_of_not_isCollection (isCollection_of_fits_scalar hfits)
  | collection shape element ih =>
    rcases input with _ | ⟨declared, _ | _ | payload⟩
    · cases shape <;> exact Validator.eachOnce_nil_of_not_isCollection rfl
    -- conversion takes a null or unknown value of the right type as it is, and validation passes it
    -- over
    · rw [findings_of_known?_eq_none (kind_of_convert hconvert) rfl]
      exact Validator.eachOnce_nil_of_not_isCollection rfl
    · rw [findings_of_known?_eq_none (kind_of_convert hconvert) rfl]
      exact Validator.eachOnce_nil_of_not_isCollection rfl
    · exact eachOnce_findings_known hconvert
        (fun child below converted path hchild => ih hfree hchild path) path
  | bare shape => cases hconvert
  | custom name base validation => cases hfree

/-- What conversion to a collection type without custom types accepts, validation accepts up to
repetitions in sets.  It tells of each of these once and of nothing else; so it finds nothing
exactly when there are none. -/
theorem validate?_of_ofWireValue (meaning : ρ → Validator ρ) {ty : Ty ρ}
    (hty : ty.shape?.isSome = true) (hfree : ty.customFree = true) {input : Wire.Value}
    {limits : Limits} (hconvert : ∃ value, ty.ofWireValue input limits = .ok value)
    (path : Path ρ) :
    ∃ diagnostics, ty.validate? meaning input path limits = some diagnostics ∧
      (∀ finding ∈ diagnostics, finding.severity = .error ∧
        finding.summary = "Duplicate Set Element") ∧
      EachOnce (TellsOf input) diagnostics ∧
      (diagnostics = [] ↔ ∀ place again, ¬ input.RepeatsAt place again) := by
  obtain ⟨value, hvalue⟩ := hconvert
  have honce := eachOnce_findings meaning hfree hvalue path
  refine ⟨_, validate?_eq_some_findings hty input path limits,
    fun finding hfinding => ?_, honce, ?_⟩
  · obtain ⟨place, again, address, -, rfl⟩ := honce.exists_of_mem hfinding
    exact ⟨rfl, rfl⟩
  · rw [honce.eq_nil_iff]
    constructor
    · intro hnone place again hrepeats
      exact hnone place (.duplicateElement path again) ⟨again, path, hrepeats, rfl⟩
    · rintro hnone place finding ⟨again, address, hrepeats, -⟩
      exact hnone place again hrepeats

/-- Three groups of names.  The first two are equal and have a name twice each; the third does too,
but a name in it is not known yet. -/
def groups : Wire.Value :=
  let name (text : String) : Wire.Value := .scalar (.string text)
  .set (.collection .set (.scalar .string))
    [.set (.scalar .string) [name "a", name "a"], .set (.scalar .string) [name "a", name "a"],
      .set (.scalar .string) [name "a", name "a", .unknown (.scalar .string)]]

/-- The group that occurs again is told of, and so are the names in the first two groups, but not
those in the third. -/
theorem validate?_of_ofWireValue_groups :
    let ty : Ty Empty := .collection .set (.collection .set (.scalar .string))
    ty.shape?.isSome = true ∧ ty.customFree = true ∧ (∃ value, ty.ofWireValue groups = .ok value) ∧
      ∃ diagnostics, ty.validate? Empty.elim groups .root = some diagnostics ∧
        diagnostics.length = 3 ∧
        (∀ finding ∈ diagnostics, finding.severity = .error ∧
          finding.summary = "Duplicate Set Element") ∧
        EachOnce (TellsOf groups) diagnostics ∧
        (diagnostics = [] ↔ ∀ place again, ¬ groups.RepeatsAt place again) := by
  intro ty
  have hshape : ty.shape?.isSome = true := rfl
  have hfree : ty.customFree = true := rfl
  have hconvert : ∃ value, ty.ofWireValue groups = .ok value :=
    ⟨_, convert_eq_ok_iff.2 ⟨⟨by decide, by decide, by decide⟩, rfl⟩⟩
  have hlength : (ty.validate? Empty.elim groups .root).map List.length = some 3 := by decide
  obtain ⟨diagnostics, hdiagnostics, h⟩ :=
    validate?_of_ofWireValue Empty.elim hshape hfree hconvert .root
  rw [hdiagnostics, Option.map_some, Option.some.injEq] at hlength
  exact ⟨hshape, hfree, hconvert, diagnostics, hdiagnostics, hlength, h⟩

end Ty

end TypedAttributes.Attribute
