/-
# Where findings point

A finding carries the path at which validation was asked for, extended by the steps from the value
down to what the finding is about.  These steps lead somewhere: each is the index of an item that
there is, a key under which there is a value, or the typed value of a member that is converted.
What is not as the type has it does not lead astray, as a validator goes on only into what it has
found to be there, and a member that is not converted is reported at the set itself.

The path of the attribute is only passed on.  So a report is described apart from it, by its
findings as seen from the value, `Diagnostic.Relative`; `Addresses` says that a report has such a
description, and which steps occur in it.  Reports are put together from others, and so are their
descriptions.
-/
import TypedAttributes.Proofs.Attribute.Visits
import TypedAttributes.Proofs.Attribute.Validation

namespace TypedAttributes.Attribute

variable {ρ : Type}

/-! ## Steps into a value -/

/-- Whether steps of a path lead from a value that is read as one of a type to something in it: by
the index of an item of a list, the key of an entry of a map, or what a member of a set is converted
to by the element type.  Everything on the way below the value is fully known. -/
inductive Ty.Resolves : Ty ρ → Wire.Value → List (Path.Step ρ) → Prop
  /-- No step leads to the value itself. -/
  | here (ty : Ty ρ) (value : Wire.Value) : Resolves ty value []
  /-- The first step leads to a child. -/
  | down {shape : Shape} {element : Ty ρ} {value child : Wire.Value} {i : Nat} {step : Path.Step ρ}
      {steps : List (Path.Step ρ)} (hstep : element.StepsTo value i step child)
      (hknown : child.isFullyKnown = true) (hrest : Resolves element child steps) :
      Resolves (.collection shape element) value (step :: steps)

/-! ## Findings as seen from a value -/

/-- A finding with the steps from the value that is validated in the place of a path. -/
structure Diagnostic.Relative (ρ : Type) where
  severity : Severity
  summary : String
  detail : String
  /-- The steps from the value to what the finding is about. -/
  steps : List (Path.Step ρ)

/-- The finding about a value at a path. -/
def Diagnostic.Relative.under (path : Path ρ) (finding : Relative ρ) : Diagnostic ρ :=
  ⟨finding.severity, finding.summary, finding.detail, some ⟨path.steps ++ finding.steps⟩⟩

/-- The finding as seen from a node from which a step leads to the value. -/
def Diagnostic.Relative.above (step : Path.Step ρ) (finding : Relative ρ) : Relative ρ :=
  { finding with steps := step :: finding.steps }

lemma Diagnostic.Relative.under_extend (path : Path ρ) (step : Path.Step ρ) (finding : Relative ρ) :
    finding.under (path.extend step) = (finding.above step).under path := by
  simp [under, above, Path.extend]

/-- Whether a report that is made for any path tells the same for all, and addresses what it tells
by the path and steps of which all are allowed. -/
def Addresses (allowed : List (Path.Step ρ) → Prop) (report : Path ρ → Diagnostics ρ) : Prop :=
  ∃ found : List (Diagnostic.Relative ρ), (∀ finding ∈ found, allowed finding.steps) ∧
    ∀ path, report path = found.map (Diagnostic.Relative.under path)

namespace Addresses

variable {allowed allowed' : List (Path.Step ρ) → Prop} {report later : Path ρ → Diagnostics ρ}

lemma nil : Addresses allowed fun _ => [] := ⟨[], by simp, fun _ => rfl⟩

/-- An error at the path itself. -/
lemma errorAt (h : allowed []) (summary detail : String) :
    Addresses allowed fun path => [.errorAt path summary detail] := by
  refine ⟨[⟨.error, summary, detail, []⟩], by simpa using h, fun path => ?_⟩
  simp [Diagnostic.Relative.under, Diagnostic.errorAt]

lemma append (h : Addresses allowed report) (h' : Addresses allowed later) :
    Addresses allowed fun path => report path ++ later path := by
  obtain ⟨found, hallowed, hreport⟩ := h
  obtain ⟨found', hallowed', hlater⟩ := h'
  exact ⟨found ++ found', List.forall_mem_append.2 ⟨hallowed, hallowed'⟩,
    fun path => by simp only [hreport, hlater, List.map_append]⟩

lemma ite (condition : Bool) (h : condition = true → Addresses allowed report) :
    Addresses allowed fun path => if condition then report path else [] := by
  cases condition
  · exact nil
  · exact h rfl

/-- What is reported on a child at the path with a step to it. -/
lemma extend {step : Path.Step ρ} (h : Addresses (fun steps => allowed (step :: steps)) report) :
    Addresses allowed fun path => report (path.extend step) := by
  obtain ⟨found, hallowed, hreport⟩ := h
  refine ⟨found.map (Diagnostic.Relative.above step), List.forall_mem_map.2 hallowed,
    fun path => ?_⟩
  simp only [hreport, List.map_map]
  exact List.map_congr_left fun finding _ => finding.under_extend path step

lemma mono (h : Addresses allowed report) (himp : ∀ steps, allowed steps → allowed' steps) :
    Addresses allowed' report := by
  obtain ⟨found, hallowed, hreport⟩ := h
  exact ⟨found, fun finding hfinding => himp _ (hallowed finding hfinding), hreport⟩

lemma congr {report' : Path ρ → Diagnostics ρ} (h : Addresses allowed report')
    (hreport : ∀ path, report path = report' path) : Addresses allowed report :=
  funext hreport ▸ h

/-- What is reported element by element. -/
lemma flatMap {α : Type} {xs : List α} {report : α → Path ρ → Diagnostics ρ}
    (h : ∀ x ∈ xs, Addresses allowed (report x)) :
    Addresses allowed fun path => xs.flatMap fun x => report x path := by
  induction xs with
  | nil => exact .nil
  | cons x rest ih =>
    obtain ⟨hx, hrest⟩ := List.forall_mem_cons.1 h
    exact .append hx (ih hrest)

lemma map_duplicateElement (h : allowed []) (again : List Wire.Value) :
    Addresses allowed fun path => again.map (.duplicateElement path) := by
  induction again with
  | nil => exact .nil
  | cons other rest ih => exact .append (.errorAt h _ _) ih

end Addresses

namespace Validator

variable {allowed : List (Path.Step ρ) → Prop} {walk : Walk}

/-! ## Validators, part by part -/

/-- Looking into a value as a collection adds findings about the value itself only. -/
lemma addresses_inspect {α : Type} {shape : Shape} {decode : Wire.Value → Except Wire.Error α}
    {input : Wire.Value} {content : Path ρ → α → Diagnostics ρ} (hroot : allowed [])
    (hcontent : ∀ found, decode input = .ok found →
      Addresses allowed fun path => content path found) :
    Addresses allowed fun path => inspect shape decode input path (content path) := by
  rcases input with _ | ⟨declared, state⟩
  · exact .nil
  by_cases hkind : declared.kind = .collection shape
  · cases hstate : state.known? with
    | none =>
      simp only [inspect_of_known?_eq_none hkind hstate]
      exact .nil
    | some payload =>
      obtain rfl : state = .known payload := by cases state <;> simp_all [State.known?]
      change Addresses allowed fun path =>
        inspect shape decode (.known declared payload) path (content path)
      cases hdecode : decode (.known declared payload) with
      | ok found =>
        simp only [inspect_known hkind hdecode]
        exact hcontent found hdecode
      | error error =>
        simp only [inspect_of_decode_error hkind hdecode]
        exact .errorAt hroot _ _
  · simp only [inspect_of_kind_ne hkind]
    exact .errorAt hroot _ _

lemma addresses_enter {inside : Path ρ → Walk → Diagnostics ρ} (hroot : allowed [])
    (hinside : ∀ below, Addresses allowed fun path => inside path below) :
    Addresses allowed fun path => enter path walk (inside path) := by
  simp only [enter]
  split
  · exact hinside _
  · exact .errorAt hroot _ _

lemma addresses_items {element : Validator ρ} {found : List Wire.Value} {position : Nat}
    (h : ∀ i item, found[i]? = some item → item.isFullyKnown = true →
      Addresses (fun steps => allowed (.index (position + i) :: steps))
        fun path => element item path walk) :
    Addresses allowed fun path => items element path walk position found := by
  induction found generalizing position with
  | nil => exact .nil
  | cons item rest ih =>
    refine .append (.ite _ fun hknown => .extend (h 0 item rfl hknown))
      (ih fun i item' hitem hknown => ?_)
    rw [Nat.add_assoc, Nat.add_comm 1 i]
    exact h (i + 1) item' hitem hknown

lemma addresses_values {element : Validator ρ} {entries : List (String × Wire.Value)}
    (h : ∀ entry ∈ entries, entry.2.isFullyKnown = true →
      Addresses (fun steps => allowed (.key entry.1 :: steps))
        fun path => element entry.2 path walk) :
    Addresses allowed fun path => values element path walk entries :=
  .flatMap fun entry hentry => .ite _ fun hknown => .extend (h entry hentry hknown)

lemma addresses_repeats (hroot : allowed []) (value : Wire.Value) (later : List Wire.Value) :
    Addresses allowed fun path => repeats path value later :=
  .map_duplicateElement hroot (later.filter fun other => other.isFullyKnown && other.equal value)

lemma addresses_conversionFailure (hroot : allowed []) (error : Error) :
    Addresses allowed fun path => [.conversionFailure path error] := by
  cases error <;> exact .errorAt hroot _ _

/-- A member that is converted is addressed by what it is converted to, and any other at the set. -/
lemma addresses_member {convert : Wire.Value → Walk → Except Error (Value ρ)}
    {element : Option (Validator ρ)} {value : Wire.Value} (hroot : allowed [])
    (h : ∀ converted, convert value walk = .ok converted → allowed [.member converted] ∧
      Addresses (fun steps => allowed (.member converted :: steps))
        fun path => element.getD silent value path walk)
    (later : List Wire.Value) :
    Addresses allowed fun path => member convert element path walk value later := by
  cases hconvert : convert value walk with
  | ok converted =>
    obtain ⟨haddress, helement⟩ := h converted hconvert
    simp only [member_of_convert hconvert]
    exact .extend (.append helement (addresses_repeats haddress value later))
  | error error =>
    simp only [member, hconvert]
    exact .append (addresses_conversionFailure hroot error) (addresses_repeats hroot value later)

lemma addresses_members {convert : Wire.Value → Walk → Except Error (Value ρ)}
    {element : Option (Validator ρ)} {found : List Wire.Value} (hroot : allowed [])
    (h : ∀ value ∈ found, value.isFullyKnown = true →
      ∀ converted, convert value walk = .ok converted → allowed [.member converted] ∧
        Addresses (fun steps => allowed (.member converted :: steps))
          fun path => element.getD silent value path walk) :
    Addresses allowed fun path => members convert element path walk found := by
  induction found with
  | nil => exact .nil
  | cons value later ih =>
    obtain ⟨hvalue, hlater⟩ := List.forall_mem_cons.1 h
    exact .append (.ite _ fun hknown => addresses_member hroot (hvalue hknown) later) (ih hlater)

/-! ## Validators of collections -/

variable {element : Option (Validator ρ)} {input : Wire.Value}

lemma addresses_list (hroot : allowed [])
    (h : ∀ items, input.asList = .ok items → ∀ i item, items[i]? = some item →
      item.isFullyKnown = true → ∀ below,
        Addresses (fun steps => allowed (.index i :: steps))
          fun path => element.getD silent item path below) :
    Addresses allowed fun path => list element input path walk := by
  refine addresses_inspect hroot fun found hfound => ?_
  cases element with
  | none => exact .nil
  | some validator =>
    refine addresses_enter hroot fun below => addresses_items fun i item hitem hknown => ?_
    rw [Nat.zero_add]
    exact h found hfound i item hitem hknown below

lemma addresses_map (hroot : allowed [])
    (h : ∀ entries, input.asMap = .ok entries → ∀ entry ∈ entries, entry.2.isFullyKnown = true →
      ∀ below, Addresses (fun steps => allowed (.key entry.1 :: steps))
        fun path => element.getD silent entry.2 path below) :
    Addresses allowed fun path => map element input path walk := by
  refine addresses_inspect hroot fun found hfound => ?_
  cases element with
  | none => exact .nil
  | some validator =>
    exact addresses_enter hroot fun below => addresses_values fun entry hentry hknown =>
      h found hfound entry hentry hknown below

lemma addresses_set {convert : Wire.Value → Walk → Except Error (Value ρ)} (hroot : allowed [])
    (h : ∀ members, input.asSet = .ok members → ∀ value ∈ members, value.isFullyKnown = true →
      ∀ below converted, convert value below = .ok converted → allowed [.member converted] ∧
        Addresses (fun steps => allowed (.member converted :: steps))
          fun path => element.getD silent value path below) :
    Addresses allowed fun path => set convert element input path walk :=
  addresses_inspect hroot fun found hfound => addresses_enter hroot fun below =>
    addresses_members hroot fun value hvalue hknown => h found hfound value hvalue hknown below

lemma addresses_bareSet (hroot : allowed []) :
    Addresses allowed fun path => bareSet input path walk :=
  addresses_inspect hroot fun _ _ => .errorAt hroot _ _

end Validator

namespace Ty

/-- What a type without custom types finds in a value is addressed by steps into the value. -/
lemma addresses_findings (meaning : ρ → Validator ρ) {ty : Ty ρ} (hfree : ty.customFree = true)
    (input : Wire.Value) (walk : Walk) :
    Addresses (ty.Resolves input) fun path => ty.findings meaning input path walk := by
  induction ty generalizing input walk with
  | scalar kind => exact .nil
  | collection shape element ih =>
    have hroot := Resolves.here (.collection shape element) input
    cases shape with
    | list =>
      refine Validator.addresses_list hroot fun items hitems i item hitem hknown below => ?_
      have hstep : element.StepsTo input i (.index i) item :=
        .index (payload?_of_asList hitems) hitem
      exact (ih hfree item below).mono fun steps hsteps => .down hstep hknown hsteps
    | map =>
      refine Validator.addresses_map hroot fun entries hentries entry hentry hknown below => ?_
      obtain ⟨i, hi⟩ := List.mem_iff_getElem?.1 hentry
      have hstep : element.StepsTo input i (.key entry.1) entry.2 :=
        .key (payload?_of_asMap hentries) hi
      exact (ih hfree entry.2 below).mono fun steps hsteps => .down hstep hknown hsteps
    | set =>
      refine Validator.addresses_set hroot
        fun members hmembers value hvalue hknown below converted h => ?_
      obtain ⟨i, hi⟩ := List.mem_iff_getElem?.1 hvalue
      have hstep : element.StepsTo input i (.member converted) value :=
        .member (payload?_of_asSet hmembers) hi (ofWireValue_of_convert h)
      exact ⟨.down hstep hknown (.here _ _),
        (ih hfree value below).mono fun steps hsteps => .down hstep hknown hsteps⟩
  | bare shape =>
    have hroot := Resolves.here (.bare shape : Ty ρ) input
    cases shape with
    | list =>
      change Addresses _ fun path => Validator.list none input path walk
      exact Validator.addresses_list hroot fun _ _ _ _ _ _ _ => .nil
    | map =>
      change Addresses _ fun path => Validator.map none input path walk
      exact Validator.addresses_map hroot fun _ _ _ _ _ _ => .nil
    | set =>
      change Addresses _ fun path => Validator.bareSet input path walk
      exact Validator.addresses_bareSet hroot
  | custom name base validation => cases hfree

/-- Every finding of a collection type without custom types, about a value of whatever form, is at
the path at which the value is validated, extended by steps that lead to something in the value.
And apart from that path what is found, with the steps, is the same at every path. -/
theorem validate?_paths_resolve (meaning : ρ → Validator ρ) {ty : Ty ρ}
    (hty : ty.shape?.isSome = true) (hfree : ty.customFree = true) (input : Wire.Value)
    (limits : Limits) :
    ∃ found : List (Diagnostic.Relative ρ), (∀ finding ∈ found, ty.Resolves input finding.steps) ∧
      ∀ path, ty.validate? meaning input path limits =
        some (found.map (Diagnostic.Relative.under path)) := by
  obtain ⟨found, hresolves, hfindings⟩ := addresses_findings meaning hfree input (.start limits)
  refine ⟨found, hresolves, fun path => ?_⟩
  rw [validate?_eq_some_findings hty]
  exact congrArg some (hfindings path)

/-- Four sets of names, the first of which has a name twice.  The second holds a list, the third has
a truth value twice in the place of a name, and the fourth is declared to be a name itself. -/
def mixedSets : Wire.Value :=
  let names : Wire.Ty := .collection .set (.scalar .string)
  let name : Wire.Value := .scalar (.string "a")
  let flag : Wire.Value := .scalar (.bool true)
  .list names [.known names (.set [name, name]), .known names (.list []),
    .known names (.set [flag, flag]), name]

/-- The truth values are complained about one by one and as being the same, so there are six
findings, at the root as below an attribute. -/
theorem validate?_paths_resolve_mixedSets :
    let ty : Ty Empty := .collection .list (.collection .set (.scalar .string))
    let tags : Path Empty := ⟨[.name "tags"]⟩
    ty.shape?.isSome = true ∧ ty.customFree = true ∧
      ∃ found : List (Diagnostic.Relative Empty), found.length = 6 ∧
        (∀ finding ∈ found, ty.Resolves mixedSets finding.steps) ∧
        ty.validate? Empty.elim mixedSets .root =
          some (found.map (Diagnostic.Relative.under .root)) ∧
        ty.validate? Empty.elim mixedSets tags =
          some (found.map (Diagnostic.Relative.under tags)) := by
  intro ty tags
  have hshape : ty.shape?.isSome = true := rfl
  have hfree : ty.customFree = true := rfl
  have hlength : (ty.validate? Empty.elim mixedSets .root).map List.length = some 6 := by decide
  obtain ⟨found, hresolves, hvalidate⟩ :=
    validate?_paths_resolve Empty.elim hshape hfree mixedSets {}
  rw [hvalidate, Option.map_some, List.length_map, Option.some.injEq] at hlength
  exact ⟨hshape, hfree, found, hlength, hresolves, hvalidate .root, hvalidate tags⟩

end Ty

end TypedAttributes.Attribute
