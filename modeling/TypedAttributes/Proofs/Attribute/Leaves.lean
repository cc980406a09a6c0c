/-
# The leaves that validation reaches

The validators of lists, maps and sets hand over to one another, each to that of its element type,
until the validator of a custom type is reached.  So what a nesting of collections around a custom
type does with a value are visits to leaves and, in between, findings about repeated members of
sets.

`Covers` says of a list of events that it is what is done with a value: the findings are those of
the events, the leaves are visited in document order, and the visits are exactly those that there
have to be.  The list for a value is put together from the lists for its fully known children, in
the order of the children, and so what is said about it is proved level by level.
-/
import TypedAttributes.Proofs.Wire.DocumentOrder
import TypedAttributes.Proofs.Wire.Gather
import TypedAttributes.Proofs.Attribute.Validation
import TypedAttributes.Proofs.Attribute.Visits

namespace TypedAttributes.Attribute

open Validator (Visit Event visits)

variable {ρ : Type}

/-! ## Findings child by child -/

namespace Validator

variable {declared : Wire.Ty} {path : Path ρ} {walk below : Walk} {element : Option (Validator ρ)}

lemma list_known_eq_gather {found : List Wire.Value} (hkind : declared.kind = .collection .list)
    (hwalk : walk.descend = .ok below) :
    list element (.known declared (.list found)) path walk =
      Wire.gather found fun i item => element.getD silent item (path.extend (.index i)) below := by
  rw [list_known hkind hwalk, ← Wire.flatten_mapIdx_eq_gather]

/-- The key of an entry, by its position. -/
def keyAt (entries : List (String × Wire.Value)) (i : Nat) : String :=
  (Keyed.keys entries)[i]?.getD ""

lemma keyAt_eq {entries : List (String × Wire.Value)} {i : Nat} {entry : String × Wire.Value}
    (h : entries[i]? = some entry) : keyAt entries i = entry.1 := by
  rw [keyAt, Keyed.keys, List.getElem?_map, h]
  rfl

lemma map_known_eq_gather {found : List (String × Wire.Value)}
    (hkind : declared.kind = .collection .map) (hwalk : walk.descend = .ok below) :
    map element (.known declared (.map found)) path walk =
      Wire.gather (found.map Prod.snd) fun i value =>
        element.getD silent value (path.extend (.key (keyAt found i))) below := by
  rw [map_known hkind hwalk, ← Wire.flatten_mapIdx_eq_gather]
  refine congrArg List.flatten (List.ext_getElem? fun i => ?_)
  rw [List.getElem?_mapIdx, List.getElem?_map, List.getElem?_map]
  cases hentry : found[i]? with
  | none => rfl
  | some entry =>
    rw [Option.map_some, Option.map_some, Option.map_some, keyAt_eq hentry]

/-- In a set of which all members are converted, a member is addressed by the typed value, and the
findings about it are followed by one for each later member that is equal to it. -/
lemma set_known_eq_gather {convert : Wire.Value → Walk → Except Error (Value ρ)}
    {read : Wire.Value → Value ρ} {found : List Wire.Value}
    (hkind : declared.kind = .collection .set) (hwalk : walk.descend = .ok below)
    (hconvert : ∀ member ∈ found, convert member below = .ok (read member)) :
    set convert element (.known declared (.set found)) path walk =
      Wire.gather found fun i member =>
        element.getD silent member (path.extend (.member (read member))) below ++
          repeats (path.extend (.member (read member))) member (found.drop (i + 1)) := by
  rw [set_known hkind hwalk, ← Wire.flatten_mapIdx_eq_gather]
  refine congrArg List.flatten (List.ext_getElem? fun i => ?_)
  rw [List.getElem?_mapIdx, List.getElem?_mapIdx]
  cases hmember : found[i]? with
  | none => rfl
  | some member =>
    rw [Option.map_some, Option.map_some,
      member_of_convert (hconvert member (List.mem_of_getElem? hmember))]

end Validator

namespace Ty

variable {declared : Wire.Ty} {payload : Wire.Payload} {element : Ty ρ} {walk below : Walk}

/-- The findings about a known collection of which all children are converted: in the order of the
children, and for each that is fully known those of the element type, at the path extended by the
step to the child, and those about its repetitions. -/
lemma exists_findings_known {shape : Shape} (hkind : declared.kind = .collection shape)
    (hwalk : walk.descend = .ok below) (hpayload : payload.kind = .collection shape)
    (hconvert : ∀ child ∈ payload.children, ∃ converted,
      element.convert child below = .ok converted) :
    ∃ (step : Nat → Wire.Value → Path.Step ρ) (again : Nat → Wire.Value → List Wire.Value),
      (∀ i child, payload.children[i]? = some child →
        element.StepsTo (.known declared payload) i (step i child) child) ∧
      ∀ meaning path,
        (Ty.collection shape element).findings meaning (.known declared payload) path walk =
        Wire.gather payload.children fun i child =>
          element.findings meaning child (path.extend (step i child)) below ++
            (again i child).map (.duplicateElement (path.extend (step i child))) := by
  cases shape with
  | list =>
    obtain ⟨items, rfl⟩ : ∃ items, payload = .list items :=
      ⟨_, Wire.Payload.eq_list_of_kind hpayload⟩
    refine ⟨fun i _ => .index i, fun _ _ => [], fun i child hchild => .index rfl hchild,
      fun meaning path => (Validator.list_known_eq_gather hkind hwalk).trans ?_⟩
    simp only [List.map_nil, List.append_nil]
    rfl
  | map =>
    obtain ⟨entries, rfl⟩ : ∃ entries, payload = .map entries :=
      ⟨_, Wire.Payload.eq_map_of_kind hpayload⟩
    refine ⟨fun i _ => .key (Validator.keyAt entries i), fun _ _ => [], fun i child hchild => ?_,
      fun meaning path => (Validator.map_known_eq_gather hkind hwalk).trans ?_⟩
    · obtain ⟨entry, hentry, rfl⟩ := Option.map_eq_some_iff.1 (List.getElem?_map ▸ hchild)
      simp only [Validator.keyAt_eq hentry]
      exact .key rfl hentry
    · simp only [List.map_nil, List.append_nil]
      rfl
  | set =>
    obtain ⟨members, rfl⟩ : ∃ members, payload = .set members :=
      ⟨_, Wire.Payload.eq_set_of_kind hpayload⟩
    have hread (member : Wire.Value) (hmember : member ∈ members) :
        element.convert member below = .ok (element.interpret member) := by
      obtain ⟨converted, h⟩ := hconvert member hmember
      rwa [← (convert_eq_ok_iff.1 h).2]
    refine ⟨fun _ child => .member (element.interpret child),
      fun i child => (members.drop (i + 1)).filter fun other =>
        other.isFullyKnown && other.equal child,
      fun i child hchild => ?_, fun meaning path => Validator.set_known_eq_gather hkind hwalk hread⟩
    exact .member rfl hchild (ofWireValue_of_convert (hread child (List.mem_of_getElem? hchild)))

end Ty

/-! ## What is done with a value -/

/-- Whether some events are what is done with a value that is read as one of a type, at a path and a
place of a walk, if the leaves are those of a target type. -/
structure Covers (target ty : Ty ρ) (input : Wire.Value) (path : Path ρ) (walk : Walk)
    (events : List (Event ρ)) : Prop where
  /-- The findings are those of the events, whatever the validator of the leaves is. -/
  findings_eq (meaning : ρ → Validator ρ) (validator : Validator ρ)
    (h : target.validator? meaning = some validator) :
    ty.findings meaning input path walk = events.flatMap (Event.findings validator)
  /-- The leaves are visited in document order. -/
  ordered : (visits events).Pairwise fun visit later => input.Precedes visit.way later.way
  /-- What is visited are the leaves that are reached, each by the steps that lead to it. -/
  mem_iff (visit : Visit ρ) : visit ∈ visits events ↔
    input.Reaches visit.way ∧ ∃ steps, Ty.Leads target visit.leaf ty input visit.way steps ∧
      visit.path = ⟨path.steps ++ steps⟩ ∧ visit.walk = ⟨walk.maxDepth, walk.depth + steps.length⟩

namespace Covers

variable {name : String} {base : Ty ρ} {validation : Validation ρ}

/-- A leaf is visited itself. -/
lemma leaf (input : Wire.Value) (path : Path ρ) (walk : Walk) :
    Covers (.custom name base validation) (.custom name base validation) input path walk
      [.applied ⟨[], input, path, walk⟩] where
  findings_eq meaning validator h := by
    rw [Ty.findings, h]
    exact (List.append_nil _).symm
  ordered := List.pairwise_singleton _ _
  mem_iff visit := by
    rw [show visits [Event.applied ⟨[], input, path, walk⟩] = [⟨[], input, path, walk⟩] from rfl,
      List.mem_singleton]
    constructor
    · rintro rfl
      exact ⟨Or.inl rfl, [], .stop, by rw [List.append_nil], rfl⟩
    · obtain ⟨way, leaf, path', walk'⟩ := visit
      rintro ⟨-, steps, ⟨⟩, rfl, rfl⟩
      rw [List.append_nil]
      rfl

/-- In a value that is not known there is nothing to visit. -/
lemma notKnown {shape : Shape} {element : Ty ρ} {input : Wire.Value} {path : Path ρ} {walk : Walk}
    (hinput : input.payload? = none)
    (hfindings : ∀ meaning, (Ty.collection shape element).findings meaning input path walk = []) :
    Covers (.custom name base validation) (.collection shape element) input path walk [] where
  findings_eq meaning validator h := hfindings meaning
  ordered := .nil
  mem_iff visit := by
    refine iff_of_false List.not_mem_nil ?_
    rintro ⟨-, steps, hleads, -⟩
    obtain ⟨i, rest, step, steps', child, -, -, hstep, -⟩ := Ty.leads_collection_iff.1 hleads
    cases hstep with
    | index hitems => cases hinput.symm.trans hitems
    | key hentries => cases hinput.symm.trans hentries
    | member hmembers => cases hinput.symm.trans hmembers

section Known

variable {shape : Shape} {element : Ty ρ} {declared : Wire.Ty} {payload : Wire.Payload}
  {path : Path ρ} {walk below : Walk} {step : Nat → Wire.Value → Path.Step ρ}
  {again : Nat → Wire.Value → List Wire.Value} {inside : Nat → Wire.Value → List (Event ρ)}

/-- A leaf below a fully known child is seen from the collection as it is from the child, at a path
with the step to the child and a walk that has entered one more collection. -/
lemma mem_iff_of_child {i : Nat} {child : Wire.Value} (hwalk : walk.descend = .ok below)
    (hknown : child.isFullyKnown = true)
    (hstep : element.StepsTo (.known declared payload) i (step i child) child)
    (hinside : Covers (.custom name base validation) element child (path.extend (step i child))
      below (inside i child))
    (visit : Visit ρ) :
    visit ∈ (visits (inside i child)).map (Visit.above i) ↔
      ∃ rest s steps, visit.way = i :: rest ∧ element.StepsTo (.known declared payload) i s child ∧
        Ty.Leads (.custom name base validation) visit.leaf element child rest steps ∧
        visit.path = ⟨path.steps ++ s :: steps⟩ ∧
        visit.walk = ⟨walk.maxDepth, walk.depth + (s :: steps).length⟩ := by
  obtain ⟨-, rfl⟩ := Walk.descend_eq_ok_iff.1 hwalk
  have hpath (steps : List (Path.Step ρ)) : (path.extend (step i child)).steps ++ steps =
      path.steps ++ step i child :: steps := by
    rw [Path.extend, List.append_assoc]
    rfl
  have hdepth (steps : List (Path.Step ρ)) : walk.depth + 1 + steps.length =
      walk.depth + (step i child :: steps).length := by
    rw [List.length_cons]
    omega
  constructor
  · intro hvisit
    obtain ⟨visit, hbelow, rfl⟩ := List.mem_map.1 hvisit
    obtain ⟨-, steps, hleads, hvisitpath, hvisitwalk⟩ := (hinside.mem_iff visit).1 hbelow
    rw [hpath] at hvisitpath
    rw [hdepth] at hvisitwalk
    exact ⟨visit.way, step i child, steps, rfl, hstep, hleads, hvisitpath, hvisitwalk⟩
  · obtain ⟨way, leaf, visitpath, visitwalk⟩ := visit
    rintro ⟨rest, s, steps, rfl, hs, hleads, rfl, rfl⟩
    obtain rfl := hs.unique hstep
    refine List.mem_map.2 ⟨⟨rest, leaf, _, _⟩,
      (hinside.mem_iff _).2 ⟨?_, steps, hleads, ?_, ?_⟩, rfl⟩
    · exact Wire.Value.reaches_of_isFullyKnown hknown hleads.node?_eq
    · rw [hpath]
    · rw [hdepth]

/-- What is done with a known collection is what is done with its fully known children, one after
the other. -/
lemma known (hwalk : walk.descend = .ok below)
    (hstep : ∀ i child, payload.children[i]? = some child →
      element.StepsTo (.known declared payload) i (step i child) child)
    (hfindings : ∀ meaning,
      (Ty.collection shape element).findings meaning (.known declared payload) path walk =
        Wire.gather payload.children fun i child =>
          element.findings meaning child (path.extend (step i child)) below ++
            (again i child).map (.duplicateElement (path.extend (step i child))))
    (hinside : ∀ i child, payload.children[i]? = some child → Covers (.custom name base validation)
      element child (path.extend (step i child)) below (inside i child)) :
    Covers (.custom name base validation) (.collection shape element)
      (.known declared payload) path walk
      (Wire.gather payload.children fun i child =>
        Event.ofChild i (path.extend (step i child)) (again i child) (inside i child)) where
  findings_eq meaning validator h := by
    rw [hfindings, Wire.flatMap_gather]
    refine Wire.gather_congr fun i child hchild => ?_
    rw [Validator.flatMap_findings_ofChild,
      (hinside i child hchild).findings_eq meaning validator h]
  ordered := by
    rw [visits, Wire.filterMap_gather]
    -- visits in one child keep their order, those in different children are ordered by position
    refine Wire.pairwise_gather (fun i child hchild => ?_) ?_
    · rw [← visits, Validator.visits_ofChild, List.pairwise_map]
      exact (hinside i child hchild).ordered.imp fun hprecedes => hprecedes.below hchild
    · intro i j child later hij _ _ x hx y hy
      rw [← visits, Validator.visits_ofChild] at hx hy
      obtain ⟨_, -, rfl⟩ := List.mem_map.1 hx
      obtain ⟨_, -, rfl⟩ := List.mem_map.1 hy
      exact Wire.Value.precedes_of_lt _ hij _ _
  mem_iff visit := by
    rw [visits, Wire.filterMap_gather, Wire.mem_gather]
    constructor
    · rintro ⟨i, child, hchild, hknown, hvisit⟩
      rw [← visits, Validator.visits_ofChild,
        mem_iff_of_child hwalk hknown (hstep i child hchild) (hinside i child hchild)] at hvisit
      obtain ⟨rest, s, steps, hway, hs, hleads, hpath, hwalk'⟩ := hvisit
      rw [hway]
      exact ⟨Or.inr ⟨i, rest, child, rfl, hchild, hknown⟩, s :: steps, .down hs hleads,
        hpath, hwalk'⟩
    · rintro ⟨hreaches, steps, hleads, hpath, hwalk'⟩
      obtain ⟨i, rest, s, steps', child, hway, rfl, hs, hrest⟩ := Ty.leads_collection_iff.1 hleads
      -- the child that the first step leads to is the one that has to be fully known
      rw [hway] at hreaches
      obtain ⟨_, _, child', hsame, hchild', hknown⟩ := hreaches.resolve_left (List.cons_ne_nil _ _)
      cases hsame
      obtain rfl := Option.some.inj (hs.getElem?_children.symm.trans hchild')
      refine ⟨i, child, hchild', hknown, ?_⟩
      rw [← visits, Validator.visits_ofChild,
        mem_iff_of_child hwalk hknown (hstep i child hchild') (hinside i child hchild')]
      exact ⟨rest, s, steps', hway, hs, hrest, hpath, hwalk'⟩

end Known

end Covers

namespace Ty

variable {name : String} {base : Ty ρ} {validation : Validation ρ}

/-- What is done with a value that is converted to a nesting of a custom type can be written
down. -/
lemma exists_covers {shapes : List Shape} {input : Wire.Value} {walk : Walk} {value : Value ρ}
    (hconvert : (nest shapes (.custom name base validation)).convert input walk = .ok value)
    (path : Path ρ) :
    ∃ events, Covers (.custom name base validation)
      (nest shapes (.custom name base validation)) input path
      walk events := by
  induction shapes generalizing input walk value path with
  | nil => exact ⟨_, .leaf input path walk⟩
  | cons shape shapes ih =>
    rcases input with _ | ⟨declared, _ | _ | payload⟩
    · refine ⟨[], .notKnown rfl fun meaning => ?_⟩
      cases shape <;> rfl
    · exact ⟨[], .notKnown rfl fun meaning =>
        findings_of_known?_eq_none (kind_of_convert hconvert) rfl _ _⟩
    · exact ⟨[], .notKnown rfl fun meaning =>
        findings_of_known?_eq_none (kind_of_convert hconvert) rfl _ _⟩
    · obtain ⟨below, hwalk, hpayload, hchildren⟩ := children_of_convert hconvert
      obtain ⟨step, again, hstep, hfindings⟩ :=
        exists_findings_known (kind_of_convert hconvert) hwalk hpayload hchildren
      have hinside (i : Nat) (child : Wire.Value) : ∃ events, payload.children[i]? = some child →
          Covers (.custom name base validation) (nest shapes (.custom name base validation)) child
            (path.extend (step i child)) below events := by
        -- where there is no such child, any events will do
        by_cases hchild : payload.children[i]? = some child
        · obtain ⟨converted, h⟩ := hchildren child (List.mem_of_getElem? hchild)
          obtain ⟨events, hevents⟩ := ih h (path.extend (step i child))
          exact ⟨events, fun _ => hevents⟩
        · exact ⟨[], fun h => absurd h hchild⟩
      choose inside hinside using hinside
      exact ⟨_, .known hwalk hstep (fun meaning => hfindings meaning path) hinside⟩

lemma validate?_eq_some_findings_nest {meaning : ρ → Validator ρ} {shapes : List Shape}
    (h : shapes ≠ []) (ty : Ty ρ) (input : Wire.Value) (path : Path ρ) (limits : Limits) :
    (nest shapes ty).validate? meaning input path limits =
      some ((nest shapes ty).findings meaning input path (.start limits)) := by
  refine validate?_eq_some_findings ?_ input path limits
  cases shapes with
  | nil => exact absurd rfl h
  | cons shape shapes => rfl

/-- What validation does with a value that is converted to lists, maps and sets around a custom
type.  It applies the validator of the custom type once to each leaf that is, or lies in, a fully
known child of the value, and to nothing else, in document order; each time at the path extended by
the steps that lead to the leaf, and at the place of the walk that has entered as many collections.
Its findings are those of the validator, with findings about repeated members of sets in between. -/
theorem validate?_visits_leaves {shapes : List Shape} (hshapes : shapes ≠ []) (name : String)
    (base : Ty ρ) (validation : Validation ρ) {input : Wire.Value} {limits : Limits}
    (hconvert : ∃ value,
      (nest shapes (.custom name base validation)).ofWireValue input limits = .ok value)
    (path : Path ρ) :
    ∃ events : List (Event ρ),
      (∀ meaning validator, (Ty.custom name base validation).validator? meaning = some validator →
        (nest shapes (.custom name base validation)).validate? meaning input path limits =
          some (events.flatMap (Event.findings validator))) ∧
      (visits events).Pairwise (fun visit later => input.Precedes visit.way later.way) ∧
      ((visits events).map Visit.way).Nodup ∧
      ∀ visit, visit ∈ visits events ↔ input.Reaches visit.way ∧
        ∃ steps, Leads (.custom name base validation) visit.leaf
            (nest shapes (.custom name base validation)) input visit.way steps ∧
          visit.path = ⟨path.steps ++ steps⟩ ∧ visit.walk = ⟨limits.maxDepth, steps.length⟩ := by
  obtain ⟨value, hvalue⟩ := hconvert
  obtain ⟨events, hcovers⟩ := exists_covers hvalue path
  refine ⟨events, fun meaning validator h => ?_, hcovers.ordered, ?_, fun visit => ?_⟩
  · rw [validate?_eq_some_findings_nest hshapes, hcovers.findings_eq meaning validator h]
  · exact List.pairwise_map.2 (hcovers.ordered.imp Wire.Value.Precedes.ne)
  · rw [hcovers.mem_iff]
    simp only [Walk.start, Nat.zero_add]

/-- Two sets of names, the first with a name that occurs twice, the second with a name that is not
known yet. -/
def nameSets : Wire.Value :=
  let name (text : String) : Wire.Value := .scalar (.string text)
  .list (.collection .set (.scalar .string))
    [.set (.scalar .string) [name "a", name "a"],
      .set (.scalar .string) [name "b", .unknown (.scalar .string)]]

/-- The two names in the first set are visited and are told to be the same; the second set is passed
over. -/
theorem validate?_visits_leaves_nameSets :
    let name : Ty Unit := .custom "Name" (.scalar .string) (.rule ())
    let ty := nest [.list, .set] name
    let meaning (_ : Unit) : Validator Unit := fun input path _ => [.errorAt path "Name" input.text]
    (∃ value, ty.ofWireValue nameSets = .ok value) ∧
      ∃ events : List (Event Unit),
        ty.validate? meaning nameSets .root = some (events.flatMap (Event.findings (meaning ()))) ∧
        (events.flatMap (Event.findings (meaning ()))).length = 3 ∧
        (visits events).Pairwise (fun visit later => nameSets.Precedes visit.way later.way) ∧
        ((visits events).map Visit.way).Nodup ∧
        ⟨[0, 1], .scalar (.string "a"),
          ⟨[.index 0,
            .member (.custom "Name" (.scalar .string) (.rule ()) (.scalar .string (.known "a")))]⟩,
          ⟨64, 2⟩⟩ ∈ visits events := by
  intro name ty meaning
  have hconvert : ∃ value, ty.ofWireValue nameSets = .ok value :=
    ⟨_, convert_eq_ok_iff.2 ⟨⟨by decide, by decide, by decide⟩, rfl⟩⟩
  have hlength : (ty.validate? meaning nameSets .root).map List.length = some 3 := by decide
  have hshapes : [Shape.list, .set] ≠ [] := List.cons_ne_nil _ _
  obtain ⟨events, hfindings, hordered, hnodup, hvisits⟩ :=
    validate?_visits_leaves hshapes "Name" (.scalar .string) (.rule ()) hconvert .root
  have hvalidate := hfindings meaning (meaning ()) rfl
  rw [hvalidate, Option.map_some, Option.some.injEq] at hlength
  refine ⟨hconvert, events, hvalidate, hlength, hordered, hnodup,
    (hvisits _).2 ⟨?_, _, ?_, rfl, rfl⟩⟩
  · exact Or.inr ⟨0, [1], _, rfl, rfl, rfl⟩
  · have hname : name.ofWireValue (.scalar (.string "a")) =
        .ok (.custom "Name" (.scalar .string) (.rule ()) (.scalar .string (.known "a"))) := rfl
    exact .down (.index rfl rfl) (.down (.member rfl rfl hname) .stop)

end Ty

end TypedAttributes.Attribute
