/-
# Validation while parts of a value are unknown

A value is validated when a plan is made, with parts of it unknown, and again when they are known.
What is found the first time is found again: the findings about a value with parts made unknown are
some of the findings about the value, unchanged and in the same order.

This asks nothing of the rules of custom types.  A validator passes over a child that is not fully
known, and a child that is fully known has nothing replaced in it, so that whatever looks at a child
looks at the same child in both runs.  Positions do not shift, since a value that is made unknown
stays in its place.  What is left is that each shape goes through its children in order, and that a
member of a set is repeated by fewer of the members after it.
-/
import TypedAttributes.Proofs.Wire.Blanked
import TypedAttributes.Proofs.Attribute.Duplicates

namespace TypedAttributes.Attribute

open Wire.Value (Blanked)

variable {ρ : Type}

namespace Validator

variable {path : Path ρ} {walk : Walk}

lemma enter_sublist {fewer all : Walk → Diagnostics ρ}
    (h : ∀ below, (fewer below).Sublist (all below)) :
    (enter path walk fewer).Sublist (enter path walk all) := by
  rw [enter, enter]
  split
  · exact h _
  · exact .refl _

/-- A child that is fully known after the replacement is the child that was there before, so that
reports on it need to be compared for one child only. -/
lemma report_sublist {child blanked : Wire.Value} (h : Blanked child blanked)
    {all fewer : Diagnostics ρ} (hreport : child = blanked → fewer.Sublist all) :
    (if blanked.isFullyKnown then fewer else []).Sublist
      (if child.isFullyKnown then all else []) := by
  cases hknown : blanked.isFullyKnown with
  | true =>
    have hsame := h.eq_of_isFullyKnown hknown
    rw [if_pos rfl, hsame, if_pos hknown]
    exact hreport hsame
  | false => exact List.nil_sublist _

/-! ## Children one by one -/

lemma items_sublist {element : Validator ρ} {found blanked : List Wire.Value}
    (h : List.Forall₂ Blanked found blanked) (position : Nat) :
    (items element path walk position blanked).Sublist
      (items element path walk position found) := by
  induction h generalizing position with
  | nil => exact .refl _
  | cons hitem _ ih =>
    rw [items, items]
    exact (report_sublist hitem fun hsame => hsame ▸ .refl _).append (ih (position + 1))

lemma values_sublist {element : Validator ρ} {found blanked : List (String × Wire.Value)}
    (h : List.Forall₂ (fun x y => x.1 = y.1 ∧ Blanked x.2 y.2) found blanked) :
    (values element path walk blanked).Sublist (values element path walk found) := by
  rw [values, values]
  induction h with
  | nil => exact .refl _
  | cons hentry _ ih =>
    obtain ⟨hkey, hvalue⟩ := hentry
    rw [List.flatMap_cons, List.flatMap_cons, hkey]
    exact (report_sublist hvalue fun hsame => hsame ▸ .refl _).append ih

/-- Fewer of the later members are fully known and equal to a member. -/
lemma repeats_sublist {value : Wire.Value} {later blanked : List Wire.Value}
    (h : List.Forall₂ Blanked later blanked) (address : Path ρ) :
    (repeats address value blanked).Sublist (repeats address value later) := by
  rw [repeats_eq_flatten, repeats_eq_flatten]
  induction h with
  | nil => exact .refl _
  | @cons x y _ _ hother _ ih =>
    rw [List.map_cons, List.map_cons, List.flatten_cons, List.flatten_cons]
    refine List.Sublist.append ?_ ih
    cases hknown : y.isFullyKnown with
    | true =>
      obtain rfl := hother.eq_of_isFullyKnown hknown
      rw [hknown]
    | false => exact List.nil_sublist _

lemma member_sublist {convert : Wire.Value → Walk → Except Error (Value ρ)}
    {element : Option (Validator ρ)} {value : Wire.Value} {later blanked : List Wire.Value}
    (h : List.Forall₂ Blanked later blanked) :
    (member convert element path walk value blanked).Sublist
      (member convert element path walk value later) := by
  obtain ⟨own, address, hmember⟩ := exists_member_eq convert element path walk value
  rw [hmember, hmember]
  exact (repeats_sublist h address).append_left own

lemma members_sublist {convert : Wire.Value → Walk → Except Error (Value ρ)}
    {element : Option (Validator ρ)} {found blanked : List Wire.Value}
    (h : List.Forall₂ Blanked found blanked) :
    (members convert element path walk blanked).Sublist
      (members convert element path walk found) := by
  induction h with
  | nil => exact .refl _
  | cons hmember hlater ih =>
    rw [members, members]
    exact (report_sublist hmember fun hsame => hsame ▸ member_sublist hlater).append ih

/-! ## Collections -/

variable {declared : Wire.Ty} {element : Option (Validator ρ)}

lemma list_sublist {found blanked : List Wire.Value} (hkind : declared.kind = .collection .list)
    (h : List.Forall₂ Blanked found blanked) :
    (list element (.known declared (.list blanked)) path walk).Sublist
      (list element (.known declared (.list found)) path walk) := by
  rw [list_of_known hkind, list_of_known hkind]
  cases element with
  | none => exact .refl _
  | some validator => exact enter_sublist fun below => items_sublist h 0

lemma map_sublist {found blanked : List (String × Wire.Value)}
    (hkind : declared.kind = .collection .map)
    (h : List.Forall₂ (fun x y => x.1 = y.1 ∧ Blanked x.2 y.2) found blanked) :
    (map element (.known declared (.map blanked)) path walk).Sublist
      (map element (.known declared (.map found)) path walk) := by
  rw [map_of_known hkind, map_of_known hkind]
  cases element with
  | none => exact .refl _
  | some validator => exact enter_sublist fun below => values_sublist h

lemma set_sublist {convert : Wire.Value → Walk → Except Error (Value ρ)}
    {found blanked : List Wire.Value} (hkind : declared.kind = .collection .set)
    (h : List.Forall₂ Blanked found blanked) :
    (set convert element (.known declared (.set blanked)) path walk).Sublist
      (set convert element (.known declared (.set found)) path walk) := by
  rw [set_of_known hkind, set_of_known hkind]
  exact enter_sublist fun below => members_sublist h

/-- Without an element type every known set has the same single finding. -/
lemma bareSet_sublist {found blanked : List Wire.Value} (hkind : declared.kind = .collection .set) :
    (bareSet (.known declared (.set blanked)) path walk).Sublist
      (bareSet (.known declared (.set found)) path walk) := by
  rw [bareSet_of_known hkind, bareSet_of_known hkind]

end Validator

namespace Ty

lemma findings_sublist {meaning : ρ → Validator ρ} {ty : Ty ρ} {shape : Shape}
    (hty : ty.shape? = some shape) {declared : Wire.Ty} {payload : Wire.Payload}
    (hkind : declared.kind = .collection shape) (hpayload : payload.kind = .collection shape)
    {blanked : Wire.Value} (h : (Wire.Value.known declared payload).Blanked blanked)
    (hproper : blanked.isKnown = true) (path : Path ρ) (walk : Walk) :
    (ty.findings meaning blanked path walk).Sublist
      (ty.findings meaning (.known declared payload) path walk) := by
  obtain ⟨element, rfl⟩ := exists_eq_ofElement hty
  cases h with
  | same => exact .refl _
  | unknown => cases hproper
  | list _ h =>
    cases hpayload
    rw [findings_list]
    exact Validator.list_sublist hkind h
  | map _ hkeys h =>
    cases hpayload
    rw [findings_map]
    exact Validator.map_sublist hkind (Keyed.forall₂_of_keys_eq hkeys h)
  | set _ h =>
    cases hpayload
    cases element with
    | some element =>
      rw [findings_set]
      exact Validator.set_sublist hkind h
    | none =>
      rw [findings_bareSet]
      exact Validator.bareSet_sublist hkind

/-- Making parts of a value unknown, at any depth, adds no finding about it, changes none and
reorders none. -/
theorem validate?_blanked_sublist (meaning : ρ → Validator ρ) {ty : Ty ρ} {shape : Shape}
    (hty : ty.shape? = some shape) {declared : Wire.Ty} {payload : Wire.Payload}
    (hkind : declared.kind = .collection shape) (hpayload : payload.kind = .collection shape)
    {blanked : Wire.Value} (hblanked : (Wire.Value.known declared payload).Blanked blanked)
    (hproper : blanked.isKnown = true) (path : Path ρ) (limits : Limits) :
    ∃ all fewer, ty.validate? meaning (.known declared payload) path limits = some all ∧
      ty.validate? meaning blanked path limits = some fewer ∧ fewer.Sublist all := by
  have hsome : ty.shape?.isSome = true := by rw [hty, Option.isSome_some]
  exact ⟨_, _, validate?_eq_some_findings hsome _ path limits,
    validate?_eq_some_findings hsome _ path limits,
    findings_sublist hty hkind hpayload hblanked hproper path _⟩

/-- Lists of names, of which the first two are the same and the third ends in a given value. -/
def namesEndingIn (last : Wire.Value) : Wire.Value :=
  let name : Wire.Value := .scalar (.string "a")
  let names (items : List Wire.Value) : Wire.Value := .list (.scalar .string) items
  .known (.collection .set (.collection .list (.scalar .string)))
    (.set [names [name], names [name], names [name, last]])

/-- With a rule that complains about every name, there are five findings about three lists, one of
them about a repetition.  If a name in the third list is not known yet, three of them are left. -/
theorem validate?_blanked_sublist_names :
    let ty : Ty Unit :=
      .collection .set (.collection .list (.custom "Name" (.scalar .string) (.rule ())))
    let meaning (_ : Unit) : Validator Unit := fun input path _ => [.errorAt path "Name" input.text]
    let names := namesEndingIn (.scalar (.string "b"))
    let blanked := namesEndingIn (.unknown (.scalar .number))
    ty.shape? = some .set ∧ names.Blanked blanked ∧ blanked.isKnown = true ∧
      ∃ all fewer, ty.validate? meaning names .root = some all ∧
        ty.validate? meaning blanked .root = some fewer ∧ fewer.Sublist all ∧ all.length = 5 ∧
        fewer.length = 3 := by
  intro ty meaning names blanked
  have hty : ty.shape? = some .set := rfl
  have hblanked : names.Blanked blanked :=
    .set _ (.cons (.same _) (.cons (.same _) (.cons
      (.list _ (.cons (.same _) (.cons (.unknown _ _) .nil))) .nil)))
  have hall : (ty.validate? meaning names .root).map List.length = some 5 := by decide
  have hfewer : (ty.validate? meaning blanked .root).map List.length = some 3 := by decide
  obtain ⟨all, fewer, h, h', hsublist⟩ : ∃ all fewer, ty.validate? meaning names .root = some all ∧
      ty.validate? meaning blanked .root = some fewer ∧ fewer.Sublist all :=
    validate?_blanked_sublist meaning hty rfl rfl hblanked rfl .root {}
  rw [h, Option.map_some, Option.some.injEq] at hall
  rw [h', Option.map_some, Option.some.injEq] at hfewer
  exact ⟨hty, hblanked, rfl, all, fewer, h, h', hsublist, hall, hfewer⟩

end Ty

end TypedAttributes.Attribute
