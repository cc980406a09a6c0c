/-
# Validation and the order of members

The validator of a set goes through the members in the order in which they are listed.  Another
order changes much of what it reports: which of two equal members is the one that occurs again, what
a failed conversion complains about first, the texts in which values are shown.  It does not change
how many findings there are.

For a type without custom types the findings about a value are those about its children, and in a
set there is one more for each pair of fully known members that are equal.  Neither number depends
on the order.  Nor do they depend on the path at which the value is validated, which has to be
carried along, as the members of sets are addressed by what they are converted to.
-/
import TypedAttributes.Proofs.Rearranged
import TypedAttributes.Proofs.Wire.Reordered
import TypedAttributes.Proofs.Attribute.Severity

namespace TypedAttributes.Attribute

open Wire.Value (Reordered)

variable {ρ : Type}

namespace Validator

/-! ## Validators that do not look at the order -/

/-- Whether a validator has as many findings about a value as about any reordering of it, at all
paths. -/
def OrderFree (validator : Validator ρ) : Prop :=
  ∀ ⦃v w : Wire.Value⦄, v.Reordered w → ∀ (path path' : Path ρ) (walk : Walk),
    (validator v path walk).length = (validator w path' walk).length

lemma orderFree_silent : (silent : Validator ρ).OrderFree := fun _ _ _ _ _ _ => rfl

/-- A value that is not known is passed over or has one finding, at whatever path. -/
lemma length_inspect_of_known?_eq_none {α : Type} {shape : Shape}
    {decode : Wire.Value → Except Wire.Error α} {declared : Wire.Ty} {state : State Wire.Payload}
    {path path' : Path ρ} {content content' : α → Diagnostics ρ} (hstate : state.known? = none) :
    (inspect shape decode (.typed declared state) path content).length =
      (inspect shape decode (.typed declared state) path' content').length := by
  by_cases hkind : declared.kind = .collection shape
  · rw [inspect_of_known?_eq_none hkind hstate, inspect_of_known?_eq_none hkind hstate]
  · rw [inspect_of_kind_ne hkind, inspect_of_kind_ne hkind, List.length_singleton,
      List.length_singleton]

/-- Looking into values of one form gives equally many findings, if what is found in them does. -/
lemma length_inspect_congr {α : Type} {shape : Shape} {decode : Wire.Value → Except Wire.Error α}
    {v w : Wire.Value} (hform : v.SameForm w) {path path' : Path ρ}
    {content content' : α → Diagnostics ρ}
    (hdecode : ∀ ty p, (∃ found, decode (.known ty p) = .ok found) ↔ p.kind = .collection shape)
    (hcontent : ∀ found found', decode v = .ok found → decode w = .ok found' →
      (content found).length = (content' found').length) :
    (inspect shape decode v path content).length =
      (inspect shape decode w path' content').length := by
  cases hform with
  | untyped => rfl
  | null ty => exact length_inspect_of_known?_eq_none rfl
  | unknown ty => exact length_inspect_of_known?_eq_none rfl
  | @known ty p q _ hkind =>
    by_cases hty : ty.kind = .collection shape
    · -- the payloads are of one kind, so both are decoded or neither is
      change (inspect shape decode (.known ty p) path content).length =
        (inspect shape decode (.known ty q) path' content').length
      have hsome : (∃ found, decode (.known ty p) = .ok found) ↔
          ∃ found, decode (.known ty q) = .ok found := by
        rw [hdecode, hdecode, hkind]
      cases hp : decode (.known ty p) with
      | ok found =>
        obtain ⟨found', hq⟩ := hsome.1 ⟨found, hp⟩
        rw [inspect_known hty hp, inspect_known hty hq]
        exact hcontent found found' hp hq
      | error error =>
        cases hq : decode (.known ty q) with
        | ok found' =>
          obtain ⟨found, hfound⟩ := hsome.2 ⟨found', hq⟩
          cases hp.symm.trans hfound
        | error error' =>
          rw [inspect_of_decode_error hty hp, inspect_of_decode_error hty hq, List.length_singleton,
            List.length_singleton]
    · rw [inspect_of_kind_ne hty, inspect_of_kind_ne hty, List.length_singleton,
        List.length_singleton]

lemma length_enter_congr {path path' : Path ρ} {walk : Walk} {inside inside' : Walk → Diagnostics ρ}
    (h : ∀ below, (inside below).length = (inside' below).length) :
    (enter path walk inside).length = (enter path' walk inside').length := by
  rw [enter, enter]
  split
  · exact h _
  · rfl

/-! ## Counting child by child -/

/-- A report on a child, which is empty if the child is not fully known. -/
def reportOn (report : Wire.Value → Diagnostics ρ) (child : Wire.Value) : Diagnostics ρ :=
  if child.isFullyKnown then report child else []

lemma length_reports_congr {report : Wire.Value → Diagnostics ρ}
    (hreport : ∀ ⦃x y⦄, x.Reordered y → (report x).length = (report y).length) {v w : Wire.Value}
    (h : v.Reordered w) :
    (v.children.flatMap (reportOn report)).length =
      (w.children.flatMap (reportOn report)).length := by
  obtain ⟨arranged, hchildren, hperm⟩ := h.children
  refine length_flatMap_congr_arranged hchildren hperm fun x y hxy => ?_
  rw [reportOn, reportOn, hxy.isFullyKnown_eq]
  split
  · exact hreport hxy
  · rfl

/-- Whether a member of a set is repeated by a later one. -/
def repeated (value later : Wire.Value) : Bool :=
  value.isFullyKnown && (later.isFullyKnown && later.equal value)

lemma repeated_of_isFullyKnown {value : Wire.Value} (h : value.isFullyKnown = true) :
    repeated value = fun other => other.isFullyKnown && other.equal value := by
  funext other
  rw [repeated, h, Bool.true_and]

lemma countP_repeated_of_not_isFullyKnown {value : Wire.Value} (h : value.isFullyKnown = false)
    (later : List Wire.Value) : later.countP (repeated value) = 0 := by
  simp [List.countP_eq_zero, repeated, h]

lemma repeated_comm (x y : Wire.Value) : repeated x y = repeated y x := by
  rw [repeated, repeated, x.partialEquivAt_equal.comm, Bool.and_left_comm]

lemma repeated_congr {x x' : Wire.Value} (hx : x.Reordered x') {y y' : Wire.Value}
    (hy : y.Reordered y') : repeated x y = repeated x' y' := by
  rw [repeated, repeated, hx.isFullyKnown_eq, hy.isFullyKnown_eq, hy.equal_eq hx]

variable {path : Path ρ} {walk : Walk}

lemma length_items {element : Validator ρ} (h : element.OrderFree) (position : Nat)
    (found : List Wire.Value) :
    (items element path walk position found).length =
      (found.flatMap (reportOn fun item => element item .root walk)).length := by
  induction found generalizing position with
  | nil => rfl
  | cons item rest ih =>
    rw [items, List.length_append, ih, List.flatMap_cons, List.length_append, reportOn]
    congr 1
    split
    · exact h (.refl item) _ _ _
    · rfl

lemma length_values {element : Validator ρ} (h : element.OrderFree)
    (entries : List (String × Wire.Value)) :
    (values element path walk entries).length =
      ((entries.map Prod.snd).flatMap (reportOn fun value => element value .root walk)).length := by
  rw [values]
  induction entries with
  | nil => rfl
  | cons entry rest ih =>
    rw [List.flatMap_cons, List.length_append, ih, List.map_cons, List.flatMap_cons,
      List.length_append, reportOn]
    congr 1
    split
    · exact h (.refl entry.2) _ _ _
    · rfl

/-- There are the findings about a member without any after it, and one for each that repeats it. -/
lemma length_member {convert : Wire.Value → Walk → Except Error (Value ρ)}
    {element : Option (Validator ρ)} (h : (element.getD silent).OrderFree) (value : Wire.Value)
    (later : List Wire.Value) :
    (member convert element path walk value later).length =
      (member convert element .root walk value []).length +
        later.countP fun other => other.isFullyKnown && other.equal value := by
  cases hconvert : convert value walk with
  | ok converted =>
    rw [member_of_convert hconvert, member_of_convert hconvert, List.length_append,
      List.length_append,
      h (.refl value) _ (Path.root.extend (.member converted)), repeats, repeats, List.length_map,
      List.countP_eq_length_filter]
    rfl
  | error error =>
    rw [member, member, hconvert, repeats, repeats, List.length_cons, List.length_cons,
      List.length_map, List.countP_eq_length_filter, Nat.add_comm]
    rfl

/-- In a set there is one more finding for each pair of equal members that are fully known. -/
lemma length_members {convert : Wire.Value → Walk → Except Error (Value ρ)}
    {element : Option (Validator ρ)} (h : (element.getD silent).OrderFree)
    (found : List Wire.Value) :
    (members convert element path walk found).length =
      (found.flatMap (reportOn fun value => member convert element .root walk value [])).length +
        pairCount repeated found := by
  induction found with
  | nil => rfl
  | cons value later ih =>
    rw [members, List.length_append, ih, List.flatMap_cons, List.length_append, pairCount, reportOn]
    -- a member that is not fully known has no findings and takes part in no pair
    cases hknown : value.isFullyKnown with
    | true =>
      rw [if_pos rfl, if_pos rfl, length_member h, repeated_of_isFullyKnown hknown]
      omega
    | false =>
      rw [countP_repeated_of_not_isFullyKnown hknown]
      simp

/-- How many findings there are about a member alone is not a matter of order. -/
lemma length_member_congr {convert : Wire.Value → Walk → Except Error (Value ρ)}
    {element : Option (Validator ρ)} (h : (element.getD silent).OrderFree)
    (hconvert : ∀ ⦃v w : Wire.Value⦄, v.Reordered w →
      ((∃ value, convert v walk = .ok value) ↔ ∃ value, convert w walk = .ok value))
    {x y : Wire.Value} (hxy : x.Reordered y) :
    (member convert element path walk x []).length =
      (member convert element path walk y []).length := by
  cases hx : convert x walk with
  | ok converted =>
    obtain ⟨converted', hy⟩ := (hconvert hxy).1 ⟨converted, hx⟩
    rw [member_of_convert hx, member_of_convert hy, List.length_append, List.length_append, h hxy]
    rfl
  | error error =>
    cases hy : convert y walk with
    | ok converted' =>
      obtain ⟨converted, hconverted⟩ := (hconvert hxy).2 ⟨converted', hy⟩
      cases hx.symm.trans hconverted
    | error error' =>
      rw [member, member, hx, hy]
      rfl

/-! ## Collections -/

variable (element : Option (Validator ρ))

lemma orderFree_list (h : (element.getD silent).OrderFree) : (list element).OrderFree := by
  intro v w hvw path path' walk
  refine length_inspect_congr hvw.sameForm (fun ty p => ?_) fun found found' hv hw => ?_
  · simp [Ty.asList_known_eq_ok_iff]
  cases element with
  | none => rfl
  | some validator =>
    have h : validator.OrderFree := h
    refine length_enter_congr fun below => ?_
    rw [length_items h, length_items h, ← Ty.children_of_asList hv, ← Ty.children_of_asList hw]
    exact length_reports_congr (fun _ _ hxy => h hxy _ _ _) hvw

lemma orderFree_map (h : (element.getD silent).OrderFree) : (map element).OrderFree := by
  intro v w hvw path path' walk
  refine length_inspect_congr hvw.sameForm (fun ty p => ?_) fun found found' hv hw => ?_
  · simp [Ty.asMap_known_eq_ok_iff]
  cases element with
  | none => rfl
  | some validator =>
    have h : validator.OrderFree := h
    refine length_enter_congr fun below => ?_
    rw [length_values h, length_values h, ← Ty.children_of_asMap hv, ← Ty.children_of_asMap hw]
    exact length_reports_congr (fun _ _ hxy => h hxy _ _ _) hvw

lemma orderFree_set {convert : Wire.Value → Walk → Except Error (Value ρ)}
    (h : (element.getD silent).OrderFree)
    (hconvert : ∀ ⦃v w : Wire.Value⦄, v.Reordered w → ∀ walk,
      ((∃ value, convert v walk = .ok value) ↔ ∃ value, convert w walk = .ok value)) :
    (set convert element).OrderFree := by
  intro v w hvw path path' walk
  refine length_inspect_congr hvw.sameForm (fun ty p => ?_) fun found found' hv hw => ?_
  · simp [Ty.asSet_known_eq_ok_iff]
  refine length_enter_congr fun below => ?_
  rw [length_members h, length_members h, ← Ty.children_of_asSet hv, ← Ty.children_of_asSet hw]
  obtain ⟨arranged, hchildren, hperm⟩ := hvw.children
  congr 1
  · exact length_reports_congr (fun _ _ => length_member_congr h fun _ _ hxy =>
      hconvert hxy below) hvw
  · exact pairCount_congr_arranged hchildren hperm repeated_comm repeated_congr

lemma orderFree_bareSet : (bareSet : Validator ρ).OrderFree := by
  intro v w hvw path path' walk
  refine length_inspect_congr hvw.sameForm (fun ty p => ?_) fun _ _ _ _ => rfl
  simp [Ty.asSet_known_eq_ok_iff]

end Validator

namespace Ty

open Validator

/-- How many findings a type without custom types has about a value is not a matter of order. -/
lemma orderFree_findings {meaning : ρ → Validator ρ} {ty : Ty ρ} (hfree : ty.customFree = true) :
    (ty.findings meaning).OrderFree := by
  induction ty with
  | scalar kind => exact orderFree_silent
  | collection shape element ih =>
    have helement : (element.findings meaning).OrderFree := ih hfree
    cases shape with
    | list => exact orderFree_list _ helement
    | map => exact orderFree_map _ helement
    | set => exact orderFree_set _ helement fun _ _ hvw => convert_isOk_iff_of_sameForm hvw.sameForm
  | bare shape =>
    cases shape with
    | list => exact orderFree_list none orderFree_silent
    | map => exact orderFree_map none orderFree_silent
    | set => exact orderFree_bareSet
  | custom name base validation => cases hfree

/-- A type without custom types has as many findings about a value as about any reordering of the
members of sets in it, and all of them are errors. -/
theorem validate?_reordered (meaning : ρ → Validator ρ) {ty : Ty ρ} (hty : ty.shape?.isSome = true)
    (hfree : ty.customFree = true) {v w : Wire.Value} (hvw : v.Reordered w) (path : Path ρ)
    (limits : Limits) :
    ∃ found found', ty.validate? meaning v path limits = some found ∧
      ty.validate? meaning w path limits = some found' ∧ found.length = found'.length ∧
      (∀ finding ∈ found, finding.severity = .error) ∧
        ∀ finding ∈ found', finding.severity = .error :=
  ⟨_, _, validate?_eq_some_findings hty v path limits, validate?_eq_some_findings hty w path limits,
    orderFree_findings hfree hvw _ _ _, errorsOnly_findings hfree v path _,
    errorsOnly_findings hfree w path _⟩

/-- A set of sets of numbers. -/
def numberSets (sets : List (List Double)) : Wire.Value :=
  .set (.collection .set (.scalar .number))
    (sets.map fun numbers =>
      .set (.scalar .number) (numbers.map fun number => .scalar (.number number)))

/-- Of three sets with a `nan`, a repeated number and equal numbers in another order, the findings
are as many after they and their members were listed in another order. -/
theorem validate?_reordered_numberSets :
    let ty : Ty Empty := .collection .set (.collection .set (.scalar .number))
    let one := Double.ofRank false 1
    let v := numberSets [[.nan, one, one], [.infinite true, one], [one, .infinite true]]
    let w := numberSets [[one, .infinite true], [one, .nan, one], [one, .infinite true]]
    ty.shape?.isSome = true ∧ ty.customFree = true ∧ v.Reordered w ∧
      ∃ found found', ty.validate? Empty.elim v .root = some found ∧
        ty.validate? Empty.elim w .root = some found' ∧ found.length = 2 ∧ found'.length = 2 ∧
        (∀ finding ∈ found, finding.severity = .error) ∧
          ∀ finding ∈ found', finding.severity = .error := by
  intro ty one v w
  have hty : ty.shape?.isSome = true := rfl
  have hfree : ty.customFree = true := rfl
  have hset {xs ys : List Double} (h : xs.Perm ys) :
      (Wire.Value.set (.scalar .number) (xs.map fun number => .scalar (.number number))).Reordered
        (.set (.scalar .number) (ys.map fun number => .scalar (.number number))) :=
    .set _ (List.forall₂_same.2 fun number _ => .refl number) (h.map _)
  have hvw : v.Reordered w :=
    .set _ (.cons (hset (.swap one .nan [one])) (.cons (hset (.swap one (.infinite true) []))
      (.cons (.refl _) .nil))) (.swap _ _ _)
  have hlength : (ty.validate? Empty.elim v .root).map List.length = some 2 := by decide
  obtain ⟨found, found', hfound, hfound', hsame, h⟩ :=
    validate?_reordered Empty.elim hty hfree hvw .root {}
  rw [hfound, Option.map_some, Option.some.injEq] at hlength
  exact ⟨hty, hfree, hvw, found, found', hfound, hfound', hlength, hsame ▸ hlength, h⟩

end Ty

end TypedAttributes.Attribute
