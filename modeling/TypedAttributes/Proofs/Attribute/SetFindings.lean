/-
# Findings about a set, member by member

The validator of a set goes through the members with a loop in a loop, converts each for its
address, and may fail in doing so.  What it reports is written here as a list.  Each fully known
member contributes what is found in it by itself and one error for each later member that repeats
it, and what it contributes depends on nothing else that is in the set.

So no member stands in the way of another.  A member that is not fully known might as well not be
there; any other, whatever is wrong with it, adds findings and takes none away.
-/
import TypedAttributes.Proofs.Attribute.Validation

namespace TypedAttributes.Attribute

variable {ρ : Type}

namespace Ty

/-- The path to a member of a set: it is extended by the typed member, if there is one, and
otherwise the member is addressed at the set itself. -/
def memberPath (element : Ty ρ) (path : Path ρ) (below : Walk) (member : Wire.Value) : Path ρ :=
  match element.convert member below with
  | .ok value => path.extend (.member value)
  | .error _ => path

/-- What is found in a member of a set by itself: what the validator of the element type reports at
the typed member, if there is a validator, or one error at the set itself if there is no typed
member. -/
def memberFindings (meaning : ρ → Validator ρ) (element : Ty ρ) (path : Path ρ) (below : Walk)
    (member : Wire.Value) : Diagnostics ρ :=
  match element.convert member below with
  | .ok value =>
    match element.validator? meaning with
    | some validator => validator member (path.extend (.member value)) below
    | none => []
  | .error (.depthExceeded limit) =>
    [.errorAt path "Value Nesting Too Deep" (Error.depthExceeded limit).message]
  | .error error => [.providerBug path .set error.message]

end Ty

namespace Validator

variable {meaning : ρ → Validator ρ} {element : Ty ρ} {path : Path ρ} {below : Walk}

/-- The findings about a member are those in the member by itself, and then one for each
repetition. -/
lemma member_eq_memberFindings (value : Wire.Value) (later : List Wire.Value) :
    member element.convert (element.validator? meaning) path below value later =
      element.memberFindings meaning path below value ++
        repeats (element.memberPath path below value) value later := by
  rw [Ty.memberFindings, Ty.memberPath]
  cases hconvert : element.convert value below with
  | ok converted =>
    rw [member, hconvert]
    cases element.validator? meaning <;> rfl
  | error error =>
    rw [member, hconvert]
    cases error <;> rfl

variable {convert : Wire.Value → Walk → Except Error (Value ρ)} {validator : Option (Validator ρ)}

/-- With fewer members there are fewer findings, and those that are left are not changed. -/
lemma members_sublist_of_sublist {found found' : List Wire.Value} (h : found.Sublist found') :
    (members convert validator path below found).Sublist
      (members convert validator path below found') := by
  induction h with
  | slnil => exact .refl _
  | cons value _ ih => exact ih.trans (List.sublist_append_right _ _)
  | @cons_cons later later' value hlater ih =>
    obtain ⟨own, address, hmember⟩ := exists_member_eq convert validator path below value
    rw [members, members, hmember, hmember]
    refine List.Sublist.append ?_ ih
    -- the member has its own findings still, and is repeated by fewer members
    have hrepeats : (repeats address value later).Sublist (repeats address value later') :=
      (hlater.filter _).map _
    split
    · exact hrepeats.append_left own
    · exact .refl _

lemma repeats_filter_isFullyKnown (address : Path ρ) (value : Wire.Value)
    (later : List Wire.Value) :
    repeats address value (later.filter Wire.Value.isFullyKnown) = repeats address value later := by
  have hknown (other : Wire.Value) :
      (other.isFullyKnown && other.equal value && other.isFullyKnown) =
        (other.isFullyKnown && other.equal value) := by
    rw [Bool.and_right_comm, Bool.and_self]
  simp only [repeats, List.filter_filter, hknown]

/-- Members that are not fully known do not matter. -/
lemma members_filter_isFullyKnown (found : List Wire.Value) :
    members convert validator path below (found.filter Wire.Value.isFullyKnown) =
      members convert validator path below found := by
  induction found with
  | nil => rfl
  | cons value later ih =>
    obtain ⟨own, address, hmember⟩ := exists_member_eq convert validator path below value
    rw [members, List.filter_cons]
    split
    next hknown => rw [members, ih, hmember, hmember, repeats_filter_isFullyKnown, if_pos hknown]
    next => exact ih

end Validator

namespace Ty

/-- The findings about a known set are, in the order of its members and for those that are fully
known, what is found in the member by itself and then one error for each later member that is fully
known and equal to it, in the order of the later ones.  Without some of the members the findings are
some of these, in the same order, and they are the same without those that are not fully known. -/
theorem findings_set_by_member (meaning : ρ → Validator ρ) (element : Ty ρ) {declared : Wire.Ty}
    (hkind : declared.kind = .collection .set) {walk below : Walk}
    (hwalk : walk.descend = .ok below) (path : Path ρ) :
    ∃ validator, (collection .set element).validator? meaning = some validator ∧
      (∀ members, validator (.known declared (.set members)) path walk =
        (members.mapIdx fun i member =>
          if member.isFullyKnown then
            element.memberFindings meaning path below member ++
              ((members.drop (i + 1)).filter fun other =>
                other.isFullyKnown && other.equal member).map
                fun other => .errorAt (element.memberPath path below member) "Duplicate Set Element"
                  ("This attribute contains duplicate values of: " ++ other.text)
          else []).flatten) ∧
      (∀ members others, List.Sublist members others →
        (validator (.known declared (.set members)) path walk).Sublist
          (validator (.known declared (.set others)) path walk)) ∧
      ∀ members,
        validator (.known declared (.set (members.filter Wire.Value.isFullyKnown))) path walk =
        validator (.known declared (.set members)) path walk := by
  have hset (members : List Wire.Value) :
      Validator.set element.convert (element.validator? meaning)
        (.known declared (.set members)) path walk =
        Validator.members element.convert (element.validator? meaning) path below members :=
    (Validator.set_of_known hkind).trans (Validator.enter_of_descend hwalk)
  refine ⟨_, rfl, fun members => ?_, fun members others h => ?_, fun members => ?_⟩
  · simp only [hset, Validator.members_eq_flatten, Validator.member_eq_memberFindings]
    rfl
  · rw [hset, hset]
    exact Validator.members_sublist_of_sublist h
  · rw [hset, hset]
    exact Validator.members_filter_isFullyKnown members

/-- Names, of which some rule says that they are suspicious. -/
def suspiciousName : Ty Unit := .custom "Name" (.scalar .string) (.rule ())

/-- The rule that warns of every value. -/
def warnOfAll : Unit → Validator Unit := fun _ _ path _ => [.warningAt path "Suspicious" ""]

/-- A name and a truth value, each twice, and an unknown name between them. -/
def someNames : List Wire.Value :=
  let name : Wire.Value := .scalar (.string "a")
  let flag : Wire.Value := .scalar (.bool true)
  [name, .unknown (.scalar .string), flag, name, flag]

/-- Of the names there are two warnings, and of the truth values, which are not converted, two
errors.  That they occur twice is told of both.  Without the truth values what is told of the names
is the same. -/
theorem findings_set_by_member_someNames :
    let declared : Wire.Ty := .collection .set (.scalar .string)
    let names := someNames.filter fun member => member.ty? = some (.scalar .string)
    declared.kind = .collection .set ∧ (Walk.start ⟨1⟩).descend = .ok ⟨1, 1⟩ ∧
      names.Sublist someNames ∧
      ∃ validator, (collection .set suspiciousName).validator? warnOfAll = some validator ∧
        (validator (.known declared (.set someNames)) .root (.start ⟨1⟩)).map
          (fun found => found.summary) =
          ["Suspicious", "Duplicate Set Element", "Set Type Validation Error",
            "Duplicate Set Element",
            "Suspicious", "Set Type Validation Error"] ∧
        (validator (.known declared (.set names)) .root (.start ⟨1⟩)).map
          (fun found => found.summary) =
          ["Suspicious", "Duplicate Set Element", "Suspicious"] ∧
        (validator (.known declared (.set names)) .root (.start ⟨1⟩)).Sublist
          (validator (.known declared (.set someNames)) .root (.start ⟨1⟩)) := by
  intro declared names
  have hkind : declared.kind = .collection .set := rfl
  have hwalk : (Walk.start ⟨1⟩).descend = .ok ⟨1, 1⟩ := rfl
  have hnames : names.Sublist someNames := List.filter_sublist
  obtain ⟨validator, hvalidator, hfindings, hsublist, -⟩ :=
    findings_set_by_member warnOfAll suspiciousName hkind hwalk .root
  refine ⟨hkind, hwalk, hnames, validator, hvalidator, ?_, ?_, hsublist _ _ hnames⟩
  · rw [hfindings]
    decide
  · rw [hfindings]
    decide

end Ty

end TypedAttributes.Attribute
