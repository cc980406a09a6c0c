/-
# Duplicates of the typed set

A set is converted member by member, duplicates and all, and equality of typed values says which
members of the typed set are the same.  The validator of the set compares members too, but as the
wire values that it has at hand: so members that cannot be converted take part as well.  What it
reports are the pairs of members that are equal on the wire.

Equal wire values are converted to equal typed values, so every pair that is reported is a pair of
duplicates of the typed set.  A node without a type and a null are different on the wire and the
same once they are converted, and nothing else is: where every node declares a type, what is
reported is every pair of duplicates.

The reports are counted by their addresses.  The findings that the validator of a set makes itself
are one step below it, at the typed member; those of the validators of its members are further down,
as nothing is wrong with a member as a whole once it has been converted.
-/
import TypedAttributes.Proofs.Attribute.EqualConversion
import TypedAttributes.Proofs.Attribute.FindingPaths
import TypedAttributes.Proofs.Attribute.Leaves
import TypedAttributes.Proofs.Attribute.MemberOrder

namespace TypedAttributes.Attribute

variable {ρ : Type}

open Diagnostic (Relative)

/-! ## Findings inside of converted values -/

namespace Addresses

variable {allowed : List (Path.Step ρ) → Prop}

/-- What is reported on a child is not about the value itself. -/
lemma below {step : Path.Step ρ} {report : Path ρ → Diagnostics ρ}
    (h : Addresses (fun _ => True) report) :
    Addresses (· ≠ []) fun path => report (path.extend step) := by
  have hbelow : Addresses (fun steps => step :: steps ≠ []) report := h.mono fun _ _ => nofun
  exact .extend hbelow

/-- What is reported on the fully known children of a value. -/
lemma gather {children : List Wire.Value} {report : Nat → Wire.Value → Path ρ → Diagnostics ρ}
    (h : ∀ i child, children[i]? = some child → Addresses allowed (report i child)) :
    Addresses allowed fun path => Wire.gather children fun i child => report i child path :=
  .flatMap fun place hplace => .ite _ fun _ =>
    h place.2 place.1 (List.mem_zipIdx_iff_getElem?.1 hplace)

end Addresses

namespace Ty

/-- Whether no rule of a custom type is ever followed in validating values of a type. -/
def ruleFree : Ty ρ → Bool
  | .scalar _ => true
  | .collection _ element => element.ruleFree
  | .bare _ => true
  | .custom _ _ .none => true
  | .custom _ base .ofBase => base.ruleFree
  | .custom _ _ (.rule _) => false

/-- About a value that is converted nothing is found at the value itself, only further down. -/
lemma addresses_findings_of_convert (meaning : ρ → Validator ρ) {ty : Ty ρ}
    (hrule : ty.ruleFree = true) {input : Wire.Value} {walk : Walk} {value : Value ρ}
    (h : ty.convert input walk = .ok value) :
    Addresses (· ≠ []) fun path => ty.findings meaning input path walk := by
  induction ty generalizing input walk value with
  | scalar kind => exact .nil
  | collection shape element ih =>
    rcases input with _ | ⟨declared, _ | _ | payload⟩
    · cases shape <;> exact .nil
    · exact Addresses.nil.congr fun path =>
        findings_of_known?_eq_none (kind_of_convert h) rfl path walk
    · exact Addresses.nil.congr fun path =>
        findings_of_known?_eq_none (kind_of_convert h) rfl path walk
    · obtain ⟨below, hwalk, hpayload, hchildren⟩ := children_of_convert h
      obtain ⟨step, again, -, hfindings⟩ :=
        exists_findings_known (kind_of_convert h) hwalk hpayload hchildren
      refine (Addresses.gather fun i child hchild => ?_).congr (hfindings meaning)
      obtain ⟨converted, hconverted⟩ := hchildren child (List.mem_of_getElem? hchild)
      have hinside : Addresses (fun _ => True) fun path =>
          element.findings meaning child path below ++
            (again i child).map (.duplicateElement path) :=
        .append ((ih hrule hconverted).mono fun _ _ => trivial) (.map_duplicateElement trivial _)
      exact hinside.below
  | bare shape => cases h
  | custom name base validation ih =>
    obtain ⟨inner, hinner, -⟩ := bind_eq_ok_iff.1 h
    cases validation with
    | none => exact .nil
    | ofBase => exact ih hrule hinner
    | rule rule => cases hrule

end Ty

/-! ## Counting repeated members -/

/-- Whether a finding is an error about a repeated member, exactly one step below the value that is
validated. -/
def Diagnostic.Relative.isDuplicate (finding : Relative ρ) : Bool :=
  finding.severity = .error && finding.summary = "Duplicate Set Element" && finding.steps.length = 1

/-- The finding about a member that occurs again, addressed by the step to the member. -/
def Diagnostic.Relative.duplicateElement (step : Path.Step ρ) (again : Wire.Value) : Relative ρ :=
  ⟨.error, "Duplicate Set Element",
    "This attribute contains duplicate values of: " ++ again.text, [step]⟩

lemma Diagnostic.Relative.isDuplicate_duplicateElement (step : Path.Step ρ) (again : Wire.Value) :
    (duplicateElement step again).isDuplicate = true := by
  simp [isDuplicate, duplicateElement]

/-- Whether a report that is made for any path tells the same for all, and tells so many times of a
repeated member one step below the path, each time in an allowed way. -/
def TellsDuplicates (allowed : Relative ρ → Prop) (n : Nat) (report : Path ρ → Diagnostics ρ) :
    Prop :=
  ∃ found : List (Relative ρ), found.countP Relative.isDuplicate = n ∧
    (∀ finding ∈ found, finding.isDuplicate = true → allowed finding) ∧
    ∀ path, report path = found.map (Relative.under path)

namespace TellsDuplicates

variable {allowed : Relative ρ → Prop} {m n : Nat} {report later : Path ρ → Diagnostics ρ}

lemma nil : TellsDuplicates allowed 0 fun _ => [] :=
  ⟨[], rfl, List.forall_mem_nil _, fun _ => rfl⟩

lemma append (h : TellsDuplicates allowed m report) (h' : TellsDuplicates allowed n later) :
    TellsDuplicates allowed (m + n) fun path => report path ++ later path := by
  obtain ⟨found, rfl, hfound, hreport⟩ := h
  obtain ⟨found', rfl, hfound', hlater⟩ := h'
  exact ⟨found ++ found', List.countP_append, List.forall_mem_append.2 ⟨hfound, hfound'⟩,
    fun path => by simp only [hreport, hlater, List.map_append]⟩

lemma congr {report' : Path ρ → Diagnostics ρ} (h : TellsDuplicates allowed n report')
    (hreport : ∀ path, report path = report' path) : TellsDuplicates allowed n report :=
  funext hreport ▸ h

lemma mono {allowed' : Relative ρ → Prop} (h : TellsDuplicates allowed n report)
    (himp : ∀ finding, allowed finding → allowed' finding) : TellsDuplicates allowed' n report := by
  obtain ⟨found, hcount, hfound, hreport⟩ := h
  exact ⟨found, hcount, fun finding hmem htells => himp finding (hfound finding hmem htells),
    hreport⟩

/-- What is found in a member further down is not one step below the set. -/
lemma of_addresses (step : Path.Step ρ) (h : Addresses (· ≠ []) report) :
    TellsDuplicates allowed 0 fun path => report (path.extend step) := by
  obtain ⟨found, hsteps, hreport⟩ := h
  have hnone : ∀ finding ∈ found.map (Relative.above step), ¬finding.isDuplicate = true := by
    refine List.forall_mem_map.2 fun finding hfinding => ?_
    have hlength := List.length_pos_iff.2 (hsteps finding hfinding)
    simp only [Relative.isDuplicate, Relative.above, List.length_cons]
    simp [Nat.ne_of_gt hlength]
  refine ⟨found.map (Relative.above step), List.countP_eq_zero.2 hnone,
    fun finding hmem htells => absurd htells (hnone finding hmem), fun path => ?_⟩
  · simp only [hreport, List.map_map]
    exact List.map_congr_left fun finding _ => finding.under_extend path step

/-- A member that is addressed by a step is told of once for each later member that is equal to it,
with the later one named. -/
lemma repeats (step : Path.Step ρ) (value : Wire.Value) (later : List Wire.Value) :
    TellsDuplicates
      (fun finding => ∃ other ∈ later, (other.isFullyKnown && other.equal value) = true ∧
        finding = .duplicateElement step other)
      (later.countP fun other => other.isFullyKnown && other.equal value)
      fun path => Validator.repeats (path.extend step) value later := by
  refine ⟨(later.filter fun other => other.isFullyKnown && other.equal value).map
    (Relative.duplicateElement step), ?_, ?_, fun path => ?_⟩
  · refine (List.countP_eq_length.2 ?_).trans ?_
    · exact List.forall_mem_map.2 fun again _ => Relative.isDuplicate_duplicateElement step again
    · rw [List.length_map, List.countP_eq_length_filter]
  · refine List.forall_mem_map.2 fun other hother _ => ?_
    obtain ⟨hmem, hequal⟩ := List.mem_filter.1 hother
    exact ⟨other, hmem, hequal, rfl⟩
  · simp only [Validator.repeats, List.map_map]
    rfl

end TellsDuplicates

namespace Validator

/-- Whether a finding is about two members in order that are equal on the wire: it names the later
one, at the step to what the earlier one is converted to. -/
def TellsPair (convert : Wire.Value → Except Error (Value ρ)) (found : List Wire.Value)
    (finding : Relative ρ) : Prop :=
  ∃ x y converted, [x, y].Sublist found ∧ repeated x y = true ∧ convert x = .ok converted ∧
    finding = .duplicateElement (.member converted) y

/-- In a set of which the fully known members are converted, the repetitions that are told of one
step below the set are the pairs of equal members. -/
lemma tellsDuplicates_members {convert : Wire.Value → Walk → Except Error (Value ρ)}
    {element : Option (Validator ρ)} {walk : Walk} {found : List Wire.Value}
    (h : ∀ value ∈ found, value.isFullyKnown = true →
      ∃ converted, convert value walk = .ok converted ∧
        Addresses (· ≠ []) fun path => element.getD silent value path walk) :
    TellsDuplicates (TellsPair (fun value => convert value walk) found) (pairCount repeated found)
      fun path => members convert element path walk found := by
  induction found with
  | nil => exact .nil
  | cons value later ih =>
    obtain ⟨hvalue, hlater⟩ := List.forall_mem_cons.1 h
    refine .append ?_ ((ih hlater).mono ?_)
    · cases hknown : value.isFullyKnown with
      | true =>
        obtain ⟨converted, hconvert, hinside⟩ := hvalue hknown
        have hmember := TellsDuplicates.append (.of_addresses (.member converted) hinside)
          (.repeats (.member converted) value later)
        rw [Nat.zero_add, ← repeated_of_isFullyKnown hknown] at hmember
        refine (hmember.congr fun path => member_of_convert hconvert).mono ?_
        rintro _ ⟨other, hother, hequal, rfl⟩
        have hrepeated := (congrFun (repeated_of_isFullyKnown hknown) other).trans hequal
        exact ⟨value, other, converted, .cons_cons value (List.singleton_sublist.2 hother),
          hrepeated, hconvert, rfl⟩
      | false =>
        rw [countP_repeated_of_not_isFullyKnown hknown]
        exact .nil
    · rintro _ ⟨x, y, converted, hpair, htells⟩
      exact ⟨x, y, converted, hpair.cons value, htells⟩

end Validator

/-! ## Duplicates on the wire and duplicates of the typed set -/

/-- Whether of two members of a set, each with the typed value that it is converted to, both are
fully known and the typed values are equal. -/
def equalAsTyped (x y : Wire.Value × Value ρ) : Bool :=
  x.1.isFullyKnown && (y.1.isFullyKnown && x.2.equal y.2)

/-- The same of two members of which every node declares a type. -/
def equalAsFullyTyped (x y : Wire.Value × Value ρ) : Bool :=
  x.1.fullyTyped && (y.1.fullyTyped && equalAsTyped x y)

namespace Ty

variable {element : Ty ρ} {found : List Wire.Value}

/-- The report on a known set is that on its members, one level further down. -/
lemma validate?_set_known (meaning : ρ → Validator ρ) {declared : Wire.Ty}
    {payload : Wire.Payload} {limits : Limits} {below : Walk}
    (hkind : declared.kind = .collection .set) (hpayload : payload.kind = .collection .set)
    (hwalk : (Walk.start limits).descend = .ok below) (path : Path ρ) :
    (collection .set element).validate? meaning (.known declared payload) path limits =
      some (Validator.members element.convert (element.validator? meaning) path below
        payload.children) := by
  rw [validate?_eq_some_findings rfl, Wire.Payload.eq_set_of_kind hpayload]
  exact congrArg some ((Validator.set_of_known hkind).trans (Validator.enter_of_descend hwalk))

/-- Of converted members the validator of the set tells each pair that is equal on the wire. -/
lemma tellsDuplicates_of_convert (meaning : ρ → Validator ρ) (hrule : element.ruleFree = true)
    {below : Walk}
    (h : ∀ member ∈ found, ∃ converted, element.convert member below = .ok converted) :
    TellsDuplicates (Validator.TellsPair (fun member => element.convert member below) found)
      (pairCount Validator.repeated found) fun path =>
        Validator.members element.convert (element.validator? meaning) path below found := by
  refine Validator.tellsDuplicates_members fun member hmember _ => ?_
  obtain ⟨converted, hconverted⟩ := h member hmember
  exact ⟨converted, hconverted, addresses_findings_of_convert meaning hrule hconverted⟩

/-- Pairs of members with what they are read as. -/
lemma pairCount_zip_map {related : Wire.Value × Value ρ → Wire.Value × Value ρ → Bool}
    (read : Wire.Value → Value ρ) :
    pairCount related (found.zip (found.map read)) =
      pairCount (fun x y => related (x, read x) (y, read y)) found := by
  rw [← List.map_prod_left_eq_zip, pairCount_map]

/-- A pair of members in order, with what they are read as. -/
lemma pair_sublist_zip_map {read : Wire.Value → Value ρ} {x y : Wire.Value} {v w : Value ρ} :
    [(x, v), (y, w)].Sublist (found.zip (found.map read)) ↔
      [x, y].Sublist found ∧ v = read x ∧ w = read y := by
  rw [← List.map_prod_left_eq_zip, List.sublist_map_iff]
  constructor
  · rintro ⟨kept, hkept, hpair⟩
    obtain ⟨x, rest, rfl, hx, hrest⟩ := List.map_eq_cons_iff.1 hpair.symm
    obtain ⟨y, rfl, hy⟩ := List.map_eq_singleton_iff.1 hrest
    cases hx
    cases hy
    exact ⟨hkept, rfl, rfl⟩
  · rintro ⟨hpair, rfl, rfl⟩
    exact ⟨[x, y], hpair, rfl⟩

/-- Two fully known members that are equal on the wire are converted to equal members. -/
lemma equalAsTyped_of_repeated (hcomplete : element.isComplete = true) {x y : Wire.Value}
    (hx : element.fits x = true) (h : Validator.repeated x y = true) :
    equalAsTyped (x, element.interpret x) (y, element.interpret y) = true := by
  simp only [Validator.repeated, equalAsTyped, Bool.and_eq_true] at h ⊢
  obtain ⟨hxknown, hyknown, hequal⟩ := h
  exact ⟨hxknown, hyknown, equal_interpret hcomplete hx (y.partialEquivAt_equal.symm hequal)⟩

/-- So there are no more pairs of the former than of the latter. -/
lemma pairCount_repeated_le (hcomplete : element.isComplete = true)
    (hfits : ∀ member ∈ found, element.fits member = true) :
    pairCount Validator.repeated found ≤
      pairCount equalAsTyped (found.zip (found.map element.interpret)) := by
  rw [pairCount_zip_map]
  exact pairCount_mono fun x hx _ _ h => equalAsTyped_of_repeated hcomplete (hfits x hx) h

/-- Of members that declare a type at every node there are no other pairs that are converted to
equal members. -/
lemma pairCount_equalAsFullyTyped_le (hfits : ∀ member ∈ found, element.fits member = true)
    (hkeys : ∀ member ∈ found, member.keysAscend = true) :
    pairCount equalAsFullyTyped (found.zip (found.map element.interpret)) ≤
      pairCount Validator.repeated found := by
  rw [pairCount_zip_map]
  refine pairCount_mono fun x hx y hy h => ?_
  simp only [Validator.repeated, equalAsFullyTyped, equalAsTyped, Bool.and_eq_true] at h ⊢
  obtain ⟨hxtyped, hytyped, hxknown, hyknown, hequal⟩ := h
  refine ⟨hxknown, hyknown, x.partialEquivAt_equal.symm ?_⟩
  exact equal_of_equal_interpret (hfits x hx) (hfits y hy) hxtyped hytyped (hkeys x hx)
    (hkeys y hy) hequal

lemma pairCount_equalAsTyped_le (read : Wire.Value → Value ρ)
    (htyped : ∀ member ∈ found, member.isFullyKnown = true → member.fullyTyped = true) :
    pairCount equalAsTyped (found.zip (found.map read)) ≤
      pairCount equalAsFullyTyped (found.zip (found.map read)) := by
  rw [pairCount_zip_map, pairCount_zip_map]
  refine pairCount_mono fun x hx y hy h => ?_
  simp only [equalAsFullyTyped, equalAsTyped, Bool.and_eq_true] at h ⊢
  exact ⟨htyped x hx h.1, htyped y hy h.2.1, h⟩

/-- What the validator of a set tells of repeated members, one step below the set, are the pairs of
fully known members that are equal on the wire.  The members of each such pair are equal in the
typed set, and what is told of it names the later one, at the step to the typed value of the earlier
one.  Of the pairs that are equal there these are at least those of members that declare a
type at every node, and so all of them if every fully known member does. -/
theorem validate?_tells_typed_duplicates (meaning : ρ → Validator ρ)
    (hrule : element.ruleFree = true) {declared : Wire.Ty} {payload : Wire.Payload}
    {limits : Limits} {value : Value ρ}
    (hkeys : (Wire.Value.known declared payload).keysAscend = true)
    (hconvert :
      (collection .set element).ofWireValue (.known declared payload) limits = .ok value) :
    ∃ told : List (Relative ρ),
      (∀ path, (collection .set element).validate? meaning (.known declared payload) path limits =
        some (told.map (Relative.under path))) ∧
      told.countP Relative.isDuplicate = pairCount Validator.repeated payload.children ∧
      (∀ x y v w, [(x, v), (y, w)].Sublist (payload.children.zip value.elements) →
        Validator.repeated x y = true → v.equal w = true) ∧
      (∀ finding ∈ told, finding.isDuplicate = true → ∃ x y v w,
        [(x, v), (y, w)].Sublist (payload.children.zip value.elements) ∧
          Validator.repeated x y = true ∧ finding = .duplicateElement (.member v) y) ∧
      told.countP Relative.isDuplicate ≤
        pairCount equalAsTyped (payload.children.zip value.elements) ∧
      pairCount equalAsFullyTyped (payload.children.zip value.elements) ≤
        told.countP Relative.isDuplicate ∧
      ((∀ member ∈ payload.children, member.isFullyKnown = true → member.fullyTyped = true) →
        told.countP Relative.isDuplicate =
          pairCount equalAsTyped (payload.children.zip value.elements)) := by
  obtain ⟨below, hwalk, hpayload, hchildren⟩ := children_of_convert hconvert
  obtain ⟨⟨hcomplete, hfits, -⟩, rfl⟩ := convert_eq_ok_iff.1 hconvert
  have helement : element.isComplete = true := hcomplete
  have hmembers : ∀ member ∈ payload.children, element.fits member = true :=
    ((fits_collection_iff.1 hfits).2 payload rfl).2
  obtain ⟨told, hcount, hpairs, htold⟩ := tellsDuplicates_of_convert meaning hrule hchildren
  have hreport (path : Path ρ) :
      (collection .set element).validate? meaning (.known declared payload) path limits =
        some (told.map (Relative.under path)) :=
    (validate?_set_known meaning (kind_of_convert hconvert) hpayload hwalk path).trans
      (congrArg some (htold path))
  refine ⟨told, hreport, hcount, fun x y v w hpair hrepeated => ?_,
    fun finding hfinding htells => ?_, ?_⟩
  · obtain ⟨hxy, rfl, rfl⟩ := pair_sublist_zip_map.1 hpair
    have hequal := equalAsTyped_of_repeated helement
      (hmembers x (hxy.subset List.mem_cons_self)) hrepeated
    simp only [equalAsTyped, Bool.and_eq_true] at hequal
    exact hequal.2.2
  · obtain ⟨x, y, converted, hxy, hrepeated, hconverted, rfl⟩ := hpairs finding hfinding htells
    obtain ⟨-, rfl⟩ := convert_eq_ok_iff.1 hconverted
    exact ⟨x, y, _, element.interpret y, pair_sublist_zip_map.2 ⟨hxy, rfl, rfl⟩, hrepeated, rfl⟩
  · have hle := pairCount_repeated_le helement hmembers
    have hge := pairCount_equalAsFullyTyped_le hmembers (Wire.Value.all_iff.1 hkeys).2
    rw [← hcount] at hle hge
    refine ⟨hle, hge, fun htyped => Nat.le_antisymm hle ?_⟩
    exact (pairCount_equalAsTyped_le element.interpret htyped).trans hge

/-- Three sets of tags.  The first two are equal and hold a tag twice, the third is null. -/
def tagSets : List Wire.Value :=
  let tag : Wire.Value := .scalar (.string "a")
  [.set (.scalar .string) [tag, tag], .set (.scalar .string) [tag, tag],
    .null (.collection .set (.scalar .string))]

/-- Three repetitions are told of, but only one of them one step below the set of sets.  It is about
two members that are equal in the typed set. -/
theorem validate?_tells_typed_duplicates_tagSets :
    let element : Ty Empty := .custom "Tags" (.collection .set (.scalar .string)) .ofBase
    let input : Wire.Value := .set (.collection .set (.scalar .string)) tagSets
    element.ruleFree = true ∧ input.keysAscend = true ∧
      (∀ member ∈ tagSets, member.isFullyKnown = true → member.fullyTyped = true) ∧
      ∃ value, (collection .set element).ofWireValue input = .ok value ∧
        ∃ told : List (Relative Empty),
          (collection .set element).validate? Empty.elim input .root =
            some (told.map (Relative.under .root)) ∧
          told.length = 3 ∧ told.countP Relative.isDuplicate = 1 ∧
          (∀ finding ∈ told, finding.isDuplicate = true → ∃ x y v w,
            [(x, v), (y, w)].Sublist (tagSets.zip value.elements) ∧ v.equal w = true ∧
              finding = .duplicateElement (.member v) y) ∧
          pairCount equalAsTyped (tagSets.zip value.elements) = 1 := by
  intro element input
  have hrule : element.ruleFree = true := rfl
  have hkeys : input.keysAscend = true := by decide
  have htyped : ∀ member ∈ tagSets, member.isFullyKnown = true → member.fullyTyped = true := by
    decide
  have hconvert : (collection .set element).ofWireValue input =
      .ok ((collection .set element).interpret input) :=
    convert_eq_ok_iff.2 ⟨⟨by decide, by decide, by decide⟩, rfl⟩
  have hlength :
      ((collection .set element).validate? Empty.elim input .root).map List.length = some 3 := by
    decide
  have hpairs : pairCount Validator.repeated tagSets = 1 := by decide
  obtain ⟨told, hvalidate, hcount, hequal, hpair, -, -, htold⟩ :=
    validate?_tells_typed_duplicates Empty.elim hrule hkeys hconvert
  have hone : told.countP Relative.isDuplicate = 1 := hcount.trans hpairs
  have hroot : (collection .set element).validate? Empty.elim input .root =
      some (told.map (Relative.under .root)) := hvalidate .root
  rw [hroot, Option.map_some, List.length_map, Option.some.injEq] at hlength
  refine ⟨hrule, hkeys, htyped, _, hconvert, told, hroot, hlength, hone,
    fun finding hfinding htells => ?_, (htold htyped).symm.trans hone⟩
  obtain ⟨x, y, v, w, hsublist, hrepeated, hfinding⟩ := hpair finding hfinding htells
  exact ⟨x, y, v, w, hsublist, hequal x y v w hsublist hrepeated, hfinding⟩

/-- A member without a type and a null are converted to equal nulls, and are not told of. -/
theorem not_told_of_untyped_and_null :
    let tags : Ty Empty := .collection .set (.scalar .string)
    let members : List Wire.Value := [.untyped, .null (.scalar .string)]
    ∃ value, tags.ofWireValue (.set (.scalar .string) members) = .ok value ∧
      pairCount equalAsTyped (members.zip value.elements) = 1 ∧
      tags.validate? Empty.elim (.set (.scalar .string) members) .root = some [] :=
  ⟨.set (some (.scalar .string)) (.known [.scalar .string .null, .scalar .string .null]),
    rfl, rfl, rfl⟩

end Ty

end TypedAttributes.Attribute
