/-
# Ways to leaves and visits to them

In a nesting of collections around a type, the leaves are the elements of the innermost collections.
A way leads to a leaf position by position, and a path step by step: by indices, keys and typed
members.  Which steps go with which positions is said by `Ty.Leads`, without any traversal.

What is done with a value by the validator of such a nesting is written down as a list of events:
the validator of the leaves is applied to something, which is a visit, or a member of a set is found
to occur again.  Events do not mention the validator of the leaves, so that a list of them says what
this validator is applied to, whatever it does.
-/
import TypedAttributes.Proofs.Attribute.Conversion
import TypedAttributes.Proofs.Wire.Repetition
import TypedAttributes.Attribute.Validate

namespace TypedAttributes.Attribute

variable {ρ : Type}

/-! ## Ways to leaves -/

namespace Ty

/-- A type nested in collections of the given shapes, the outermost first. -/
def nest (shapes : List Shape) (ty : Ty ρ) : Ty ρ := shapes.foldr .collection ty

/-- Whether a step of a path leads from a known collection to its child at a position: an index to
the item of a list, a key to the value of a map, a typed value to the member of a set that is
converted to it. -/
inductive StepsTo (element : Ty ρ) (value : Wire.Value) (i : Nat) : Path.Step ρ → Wire.Value → Prop
  | index {items : List Wire.Value} {child : Wire.Value}
      (hitems : value.payload? = some (.list items))
      (hchild : items[i]? = some child) : StepsTo element value i (.index i) child
  | key {entries : List (String × Wire.Value)} {key : String} {child : Wire.Value}
      (hentries : value.payload? = some (.map entries)) (hentry : entries[i]? = some (key, child)) :
      StepsTo element value i (.key key) child
  | member {members : List Wire.Value} {child : Wire.Value} {limits : Limits} {converted : Value ρ}
      (hmembers : value.payload? = some (.set members)) (hchild : members[i]? = some child)
      (hconvert : element.ofWireValue child limits = .ok converted) :
      StepsTo element value i (.member converted) child

/-- Whether a way down leads from a value that is read as one of a type to a leaf that is read as
one of a target type, and by which steps of a path. -/
inductive Leads (target : Ty ρ) (leaf : Wire.Value) :
    Ty ρ → Wire.Value → List Nat → List (Path.Step ρ) → Prop
  /-- The value is a leaf. -/
  | stop : Leads target leaf target leaf [] []
  /-- The way leads through a child of a collection. -/
  | down {shape : Shape} {element : Ty ρ} {value child : Wire.Value} {i : Nat} {step : Path.Step ρ}
      {way : List Nat} {steps : List (Path.Step ρ)} (hstep : element.StepsTo value i step child)
      (hrest : Leads target leaf element child way steps) :
      Leads target leaf (.collection shape element) value (i :: way) (step :: steps)

namespace StepsTo

variable {element : Ty ρ} {value child child' : Wire.Value} {i : Nat} {step step' : Path.Step ρ}

lemma getElem?_children (h : element.StepsTo value i step child) :
    value.children[i]? = some child := by
  cases h with
  | index hitems hchild => rwa [Wire.Value.children_of_payload? hitems]
  | key hentries hentry =>
    rw [Wire.Value.children_of_payload? hentries, Wire.Payload.children_map,
      List.getElem?_map, hentry]
    rfl
  | member hmembers hchild => rwa [Wire.Value.children_of_payload? hmembers]

/-- Only one step leads to a child. -/
lemma unique (h : element.StepsTo value i step child) (h' : element.StepsTo value i step' child') :
    step = step' := by
  cases h with
  | index hitems hchild =>
    cases h' with
    | index => rfl
    | key hentries => cases hitems.symm.trans hentries
    | member hmembers => cases hitems.symm.trans hmembers
  | key hentries hentry =>
    cases h' with
    | index hitems => cases hitems.symm.trans hentries
    | key hentries' hentry' =>
      cases hentries.symm.trans hentries'
      cases hentry.symm.trans hentry'
      rfl
    | member hmembers => cases hentries.symm.trans hmembers
  | member hmembers hchild hconvert =>
    cases h' with
    | index hitems => cases hitems.symm.trans hmembers
    | key hentries => cases hentries.symm.trans hmembers
    | member hmembers' hchild' hconvert' =>
      cases hmembers.symm.trans hmembers'
      cases hchild.symm.trans hchild'
      rw [(convert_eq_ok_iff.1 hconvert).2, (convert_eq_ok_iff.1 hconvert').2]

end StepsTo

lemma Leads.node?_eq {target ty : Ty ρ} {value leaf : Wire.Value} {way : List Nat}
    {steps : List (Path.Step ρ)} (h : Leads target leaf ty value way steps) :
    value.node? way = some leaf := by
  induction h with
  | stop => rfl
  | down hstep _ ih => rw [Wire.Value.node?, hstep.getElem?_children, Option.bind_some, ih]

/-- A way from a collection to a leaf of a custom type leads through a child. -/
lemma leads_collection_iff {name : String} {base element : Ty ρ} {validation : Validation ρ}
    {shape : Shape} {value leaf : Wire.Value} {way : List Nat} {steps : List (Path.Step ρ)} :
    Leads (.custom name base validation) leaf (.collection shape element) value way steps ↔
      ∃ i rest step steps' child, way = i :: rest ∧ steps = step :: steps' ∧
        element.StepsTo value i step child ∧
        Leads (.custom name base validation) leaf element child rest steps' := by
  constructor
  · rintro ⟨⟩
    exact ⟨_, _, _, _, _, rfl, rfl, ‹_›, ‹_›⟩
  · rintro ⟨i, rest, step, steps', child, rfl, rfl, hstep, hrest⟩
    exact .down hstep hrest

end Ty

/-! ## Events -/

namespace Validator

/-- An application of the validator of the leaves: the way down to the leaf, and what the validator
is applied to. -/
structure Visit (ρ : Type) where
  way : List Nat
  leaf : Wire.Value
  path : Path ρ
  walk : Walk

/-- The same visit, as seen from a node of which the value is the child at a position. -/
def Visit.above (position : Nat) (visit : Visit ρ) : Visit ρ :=
  { visit with way := position :: visit.way }

/-- Something that is done with a value. -/
inductive Event (ρ : Type) where
  /-- The validator of the leaves is applied. -/
  | applied (visit : Visit ρ)
  /-- A member of a set is found to occur again. -/
  | repeated (address : Path ρ) (again : Wire.Value)

namespace Event

/-- The same event, as seen from a node of which the value is the child at a position. -/
def above (position : Nat) : Event ρ → Event ρ
  | .applied visit => .applied (visit.above position)
  | .repeated address again => .repeated address again

/-- The visit, if the event is one. -/
def visit? : Event ρ → Option (Visit ρ)
  | .applied visit => some visit
  | .repeated _ _ => none

/-- What is found by an event, given the validator of the leaves. -/
def findings (validator : Validator ρ) : Event ρ → Diagnostics ρ
  | .applied visit => validator visit.leaf visit.path visit.walk
  | .repeated address again => [.duplicateElement address again]

lemma findings_above (validator : Validator ρ) (position : Nat) (event : Event ρ) :
    (event.above position).findings validator = event.findings validator := by
  cases event <;> rfl

lemma visit?_above (position : Nat) (event : Event ρ) :
    (event.above position).visit? = event.visit?.map (Visit.above position) := by
  cases event <;> rfl

/-- The events in a child that is addressed by a step, and then its repetitions. -/
def ofChild (position : Nat) (address : Path ρ) (again : List Wire.Value)
    (inside : List (Event ρ)) : List (Event ρ) :=
  inside.map (above position) ++ again.map (.repeated address)

end Event

/-- The visits among some events. -/
def visits (events : List (Event ρ)) : List (Visit ρ) := events.filterMap Event.visit?

/-! ## Events child by child -/

lemma flatMap_findings_ofChild (validator : Validator ρ) (position : Nat) (address : Path ρ)
    (again : List Wire.Value) (inside : List (Event ρ)) :
    (Event.ofChild position address again inside).flatMap (Event.findings validator) =
      inside.flatMap (Event.findings validator) ++ again.map (.duplicateElement address) := by
  have hinside : (inside.map (Event.above position)).flatMap (Event.findings validator) =
      inside.flatMap (Event.findings validator) := by
    rw [List.flatMap_map]
    exact List.flatMap_congr fun event _ => event.findings_above validator position
  have hagain : (again.map (Event.repeated address)).flatMap (Event.findings validator) =
      again.map (.duplicateElement address) := by
    rw [List.flatMap_map, List.map_eq_flatMap]
    rfl
  rw [Event.ofChild, List.flatMap_append, hinside, hagain]

lemma visits_ofChild (position : Nat) (address : Path ρ) (again : List Wire.Value)
    (inside : List (Event ρ)) :
    visits (Event.ofChild position address again inside) =
      (visits inside).map (Visit.above position) := by
  have hinside : (inside.map (Event.above position)).filterMap Event.visit? =
      (inside.filterMap Event.visit?).map (Visit.above position) := by
    rw [List.filterMap_map, List.map_filterMap]
    exact congrArg (inside.filterMap ·) (funext (Event.visit?_above position))
  have hagain : (again.map (Event.repeated address)).filterMap Event.visit? = [] := by
    simp [Event.visit?]
  rw [Event.ofChild, visits, List.filterMap_append, hinside, hagain, List.append_nil, visits]

end Validator

end TypedAttributes.Attribute
