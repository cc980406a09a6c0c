/-
# Steps down a type

The steps of a wire address lead down a type as they lead down a value, and nothing but their kinds
counts: a type has no positions, keys or members, and every step of the right kind goes to the
element type.  Both walks see through custom types, but not in the same way.  A custom type passes a
step on to its base, whereas a value of it shows nothing of the value inside, so that on the way
down a value wrappers have to be opened.

The walks agree.  What is in a converted value is the interpretation of something under the type
that is shown by it, and of a wrapper the value inside is an interpretation under the base.  So
every step from a value to an element is matched by a step from the type of the value to the type of
the element.
-/
import TypedAttributes.Attribute.Path
import TypedAttributes.Proofs.Attribute.Construction
import TypedAttributes.Proofs.Attribute.CustomTypes

namespace TypedAttributes

/-- The shape of the collections into which a step of its kind leads; an attribute name leads into
none. -/
def Wire.Step.shape? : Wire.Step → Option Shape
  | .name _ => none
  | .key _ => some .map
  | .index _ => some .list
  | .member _ => some .set

namespace Attribute

variable {ρ : Type}

/-! ## Following a type -/

namespace Ty

/-- The type to which steps lead one after the other. -/
def follow (ty : Ty ρ) (steps : List Wire.Step) : Except Error (Ty ρ) :=
  steps.foldlM (fun reached step => reached.applyStep step) ty

/-- The shapes of the collections that are nested in a type, the outermost first; custom types add
none. -/
def shapes : Ty ρ → List Shape
  | .scalar _ => []
  | .collection shape element => shape :: element.shapes
  | .bare shape => [shape]
  | .custom _ base _ => base.shapes

variable {element reached : Ty ρ} {shape : Shape} {step : Wire.Step} {rest : List Wire.Step}

lemma follow_cons (ty : Ty ρ) (step : Wire.Step) (rest : List Wire.Step) :
    ty.follow (step :: rest) = ty.applyStep step >>= fun reached => reached.follow rest :=
  List.foldlM_cons

lemma leadsInto_iff : leadsInto step shape = true ↔ step.shape? = some shape := by
  cases step <;> cases shape <;> simp [leadsInto, Wire.Step.shape?]

lemma applyStep_collection_eq_ok_iff :
    (collection shape element).applyStep step = .ok reached ↔ step.shape? = some shape ∧
      reached = element := by
  rw [applyStep, ← leadsInto_iff]
  split
  next h => simp [h, eq_comm]
  next h => simp [h]

/-- Into a collection a step of the right kind is needed, and after it the element type is
followed. -/
lemma follow_collection_isOk_iff :
    (∃ reached, (collection shape element).follow (step :: rest) = .ok reached) ↔
      step.shape? = some shape ∧ ∃ reached, element.follow rest = .ok reached := by
  simp only [follow_cons, bind_eq_ok_iff, applyStep_collection_eq_ok_iff]
  constructor
  · rintro ⟨reached, _, ⟨hshape, rfl⟩, hrest⟩
    exact ⟨hshape, reached, hrest⟩
  · rintro ⟨hshape, reached, hrest⟩
    exact ⟨reached, _, ⟨hshape, rfl⟩, hrest⟩

/-- Whether steps go down some of the levels of a type, from the outermost on: there are no more of
them, and each has the kind of its level. -/
def Descends (steps : List Wire.Step) (shapes : List Shape) : Prop :=
  steps.length ≤ shapes.length ∧
    ∀ (k : Nat) (step : Wire.Step), steps[k]? = some step → step.shape? = shapes[k]?

lemma descends_nil (shapes : List Shape) : Descends [] shapes := ⟨Nat.zero_le _, nofun⟩

lemma not_descends_nil : ¬ Descends (step :: rest) [] :=
  fun h => Nat.not_succ_le_zero rest.length h.1

lemma descends_cons_iff {below : List Shape} :
    Descends (step :: rest) (shape :: below) ↔ step.shape? = some shape ∧ Descends rest below := by
  constructor
  · rintro ⟨hlength, hkinds⟩
    exact ⟨hkinds 0 step rfl, Nat.le_of_succ_le_succ hlength, fun k => hkinds (k + 1)⟩
  · rintro ⟨hshape, hlength, hkinds⟩
    refine ⟨Nat.succ_le_succ hlength, ?_⟩
    rintro (_ | k) later hlater
    · obtain rfl := Option.some.inj hlater
      exact hshape
    · exact hkinds k later hlater

/-- A complete type is followed by the steps that go down its levels, and by no others. -/
lemma follow_isOk_iff {ty : Ty ρ} (hcomplete : ty.isComplete = true) (steps : List Wire.Step) :
    (∃ reached, ty.follow steps = .ok reached) ↔ Descends steps ty.shapes := by
  cases steps with
  | nil => exact iff_of_true ⟨ty, rfl⟩ (descends_nil _)
  | cons step rest =>
    -- a custom type takes a step without getting shorter by a level, so the induction is on the
    -- type
    induction ty generalizing step rest with
    | scalar kind => exact iff_of_false nofun not_descends_nil
    | collection shape element ih =>
      rw [follow_collection_isOk_iff, shapes, descends_cons_iff]
      refine and_congr_right fun _ => ?_
      cases rest with
      | nil => exact iff_of_true ⟨element, rfl⟩ (descends_nil _)
      | cons later rest => exact ih hcomplete later rest
    | bare shape => cases hcomplete
    | custom name base validation ih => exact ih hcomplete step rest

end Ty

/-! ## Steps down a value -/

/-- Whether a step of an address says what a step of a path says.  Indices and keys are the same in
both; of a typed member the address holds the wire value. -/
inductive Path.Step.Corresponds : Path.Step ρ → Wire.Step → Prop
  | index (position : Nat) : Corresponds (.index position) (.index position)
  | key (key : String) : Corresponds (.key key) (.key key)
  | member {value : Value ρ} {encoded : Wire.Value} (h : value.toWire = .ok encoded) :
    Corresponds (.member value) (.member encoded)

namespace Value

/-- Whether a step leads from a value to an element of it: the position of an item of a list, the
key of an entry of a map, or the member of a set itself.  A wrapper is opened on the way. -/
inductive StepsTo : Value ρ → Path.Step ρ → Value ρ → Prop
  | index {element : Option (Ty ρ)} {items : List (Value ρ)} {position : Nat} {item : Value ρ}
      (hitem : items[position]? = some item) :
      StepsTo (.list element (.known items)) (.index position) item
  | key {element : Option (Ty ρ)} {entries : List (String × Value ρ)} {key : String}
      {value : Value ρ}
      (hentry : (key, value) ∈ entries) : StepsTo (.map element (.known entries)) (.key key) value
  | member {element : Option (Ty ρ)} {members : List (Value ρ)} {member : Value ρ}
      (hmember : member ∈ members) : StepsTo (.set element (.known members)) (.member member) member
  | wrapped {name : String} {base : Ty ρ} {validation : Validation ρ} {inner part : Value ρ}
      {step : Path.Step ρ} (h : StepsTo inner step part) :
      StepsTo (.custom name base validation inner) step part

/-- Whether a chain of steps leads from a value to something in it. -/
inductive Reaches : Value ρ → List (Path.Step ρ) → Value ρ → Prop
  /-- No step leads to the value itself. -/
  | here (value : Value ρ) : Reaches value [] value
  /-- The first step leads to an element. -/
  | down {value next part : Value ρ} {step : Path.Step ρ} {chain : List (Path.Step ρ)}
      (hstep : StepsTo value step next) (hrest : Reaches next chain part) :
      Reaches value (step :: chain) part

variable {value part : Value ρ}

/-- Whether a value is what some wire value stands for under the type that the value shows. -/
def Interprets (value : Value ρ) : Prop := ∃ input, value.ty.interpret input = value

lemma interprets_interpret (ty : Ty ρ) (input : Wire.Value) : (ty.interpret input).Interprets :=
  ⟨input, by rw [Ty.ty_interpret]⟩

/-- A part of an interpreted collection shows the element type and is an interpretation itself. -/
lemma Interprets.of_mem_parts {shape : Shape} {element : Option (Ty ρ)} (h : value.Interprets)
    (hty : value.ty = .ofElement shape element) (hpart : part ∈ value.parts) :
    element = some part.ty ∧ part.Interprets := by
  obtain ⟨input, hinput⟩ := h
  rw [hty] at hinput
  subst hinput
  cases element with
  | none =>
    -- a collection without element type is read as null
    cases shape <;> cases hpart
  | some element =>
    obtain ⟨child, -, rfl⟩ := Ty.exists_child_of_mem_parts_interpret hpart
    exact ⟨by rw [Ty.ty_interpret], interprets_interpret element child⟩

/-- A step down an interpreted value is matched by a step from the type of the value to the type of
what it leads to, which is an interpretation again. -/
lemma Interprets.step {step : Path.Step ρ} {wire : Wire.Step} (h : value.Interprets)
    (hstep : value.StepsTo step part) (hwire : step.Corresponds wire) :
    value.ty.applyStep wire = .ok part.ty ∧ part.Interprets := by
  induction hstep with
  | index hitem =>
    obtain ⟨rfl, hpart⟩ := h.of_mem_parts rfl (List.mem_of_getElem? hitem)
    cases hwire
    exact ⟨Ty.applyStep_collection_eq_ok_iff.2 ⟨rfl, rfl⟩, hpart⟩
  | key hentry =>
    obtain ⟨rfl, hpart⟩ := h.of_mem_parts rfl (List.mem_map_of_mem hentry)
    cases hwire
    exact ⟨Ty.applyStep_collection_eq_ok_iff.2 ⟨rfl, rfl⟩, hpart⟩
  | member hmember =>
    obtain ⟨rfl, hpart⟩ := h.of_mem_parts rfl hmember
    cases hwire
    exact ⟨Ty.applyStep_collection_eq_ok_iff.2 ⟨rfl, rfl⟩, hpart⟩
  | @wrapped name base validation inner part step _ ih =>
    obtain ⟨input, hinput⟩ := h
    obtain rfl : base.interpret input = inner := by
      injection hinput
    have hbase := ih (interprets_interpret base input) hwire
    rw [Ty.ty_interpret] at hbase
    exact hbase

/-- A chain down an interpreted value is matched by the steps from its type to the type of what is
reached. -/
lemma Interprets.follow {chain : List (Path.Step ρ)} {steps : List Wire.Step}
    (h : value.Interprets) (hreaches : value.Reaches chain part)
    (hsteps : List.Forall₂ Path.Step.Corresponds chain steps) :
    value.ty.follow steps = .ok part.ty := by
  induction hreaches generalizing steps with
  | here value =>
    cases hsteps
    rfl
  | down hstep _ ih =>
    cases hsteps with
    | cons hwire hrest =>
      obtain ⟨happly, hnext⟩ := h.step hstep hwire
      rw [Ty.follow_cons, happly]
      exact ih hnext hrest

/-! ## Steps that correspond -/

/-- A step down a value that carries complete types corresponds to one of an address. -/
lemma StepsTo.exists_corresponds {step : Path.Step ρ} (hstep : value.StepsTo step part)
    (h : value.typesComplete = true) :
    part.typesComplete = true ∧ ∃ wire, step.Corresponds wire := by
  induction hstep with
  | @index element items position item hitem =>
    exact ⟨(all_iff.1 h).2 item (List.mem_of_getElem? hitem), _, .index position⟩
  | @key element entries key value hentry =>
    exact ⟨(all_iff.1 h).2 value (List.mem_map_of_mem hentry), _, .key key⟩
  | @member element members member hmember =>
    have hcomplete := (all_iff.1 h).2 member hmember
    obtain ⟨encoded, hencoded⟩ := exists_toWire_of_typesComplete hcomplete
    exact ⟨hcomplete, _, .member hencoded⟩
  | @wrapped name base validation inner part step _ ih =>
    exact ih ((all_iff.1 h).2 inner List.mem_cons_self)

lemma Reaches.exists_corresponds {chain : List (Path.Step ρ)} (hreaches : value.Reaches chain part)
    (h : value.typesComplete = true) : ∃ steps, List.Forall₂ Path.Step.Corresponds chain steps := by
  induction hreaches with
  | here value => exact ⟨[], .nil⟩
  | down hstep _ ih =>
    obtain ⟨hnext, wire, hwire⟩ := hstep.exists_corresponds h
    obtain ⟨steps, hsteps⟩ := ih hnext
    exact ⟨wire :: steps, .cons hwire hsteps⟩

end Value

namespace Ty

/-- Steps can be followed down a complete type if and only if there are no more of them than
collections nested in the type, custom types seen through, and each is of the kind that leads into
the collection it has come to.  And the types along the way are those of the values: if a chain of
positions, keys and members leads from a converted value to an element, with wrappers opened on the
way, then there are steps of an address that correspond to it, and all such steps lead from the type
to exactly the type of the element. -/
theorem follow_agrees_with_values (ty : Ty ρ) :
    (ty.isComplete = true → ∀ steps : List Wire.Step,
      (∃ reached, ty.follow steps = .ok reached) ↔ Descends steps ty.shapes) ∧
      ∀ (input : Wire.Value) (limits : Limits) (value : Value ρ),
        ty.ofWireValue input limits = .ok value →
        ∀ (chain : List (Path.Step ρ)) (part : Value ρ), value.Reaches chain part →
          (∃ steps, List.Forall₂ Path.Step.Corresponds chain steps) ∧
            ∀ steps, List.Forall₂ Path.Step.Corresponds chain steps →
              ty.follow steps = .ok part.ty := by
  constructor
  · exact fun hcomplete steps => follow_isOk_iff hcomplete steps
  · intro input limits value hvalue chain part hreaches
    have hcomplete : value.typesComplete = true := Value.typesComplete_of_ofWireValue hvalue
    obtain ⟨-, rfl⟩ := convert_eq_ok_iff.1 hvalue
    refine ⟨hreaches.exists_corresponds hcomplete, fun steps hsteps => ?_⟩
    have hfollow := (Value.interprets_interpret ty input).follow hreaches hsteps
    rwa [ty_interpret] at hfollow

/-- A route, which is a list of hosts. -/
def route : Ty Empty := .custom "Route" (.collection .list (.scalar .string)) .none

/-- Sets of routes by target. -/
def routes : Ty Empty := .custom "Routes" (.collection .map (.collection .set route)) .none

/-- The hosts of a route, as a wire value. -/
def wireHosts : Wire.Value := .list (.scalar .string) [.scalar (.string "a"), .scalar (.string "b")]

/-- One target with the one route to it. -/
def wireRoutes : Wire.Value :=
  let hosts : Wire.Ty := .collection .list (.scalar .string)
  .known (.collection .map (.collection .set hosts))
    (.map [("x", .known (.collection .set hosts) (.set [wireHosts]))])

/-- A member, any at all, is the way into a set of routes, and an index is not.  The second host of
the route is reached in the value through two wrappers, and its type by the steps that correspond;
those to the route itself lead to its custom type. -/
theorem follow_agrees_with_values_routes :
    let someRoute : Value Empty := .custom "Route" (.collection .list (.scalar .string)) .none
      (.list (some (.scalar .string))
        (.known [.scalar .string (.known "a"), .scalar .string (.known "b")]))
    let converted : Value Empty :=
      .custom "Routes" (.collection .map (.collection .set route)) .none
      (.map (some (.collection .set route))
        (.known [("x", .set (some route) (.known [someRoute]))]))
    routes.isComplete = true ∧
      (∃ reached, routes.follow [.key "y", .member .untyped, .index (-1)] = .ok reached) ∧
      (¬ ∃ reached, routes.follow [.key "y", .index 0] = .ok reached) ∧
      routes.ofWireValue wireRoutes ⟨3⟩ = .ok converted ∧
      routes.follow [.key "x", .member wireHosts] = .ok route ∧
      routes.follow [.key "x", .member wireHosts, .index 1] = .ok (.scalar .string) := by
  intro someRoute converted
  obtain ⟨hfollow, hreached⟩ := follow_agrees_with_values routes
  have hcomplete : routes.isComplete = true := rfl
  have hconverted : routes.ofWireValue wireRoutes ⟨3⟩ = .ok converted := rfl
  have hshapes : routes.shapes = [.map, .set, .list] := rfl
  have hrefused : ¬ Descends [.key "y", .index 0] routes.shapes := by
    simp [hshapes, descends_cons_iff, Wire.Step.shape?]
  have haccepted : Descends [.key "y", .member .untyped, .index (-1)] routes.shapes := by
    simp [hshapes, descends_cons_iff, descends_nil, Wire.Step.shape?]
  have htarget : converted.StepsTo (.key "x") (.set (some route) (.known [someRoute])) :=
    .wrapped (.key List.mem_cons_self)
  have hroute :
      Value.StepsTo (.set (some route) (.known [someRoute])) (.member someRoute) someRoute :=
    .member List.mem_cons_self
  have hhost : someRoute.StepsTo (.index 1) (.scalar .string (.known "b")) := .wrapped (.index rfl)
  have hwire : Path.Step.Corresponds (.member someRoute) (.member wireHosts) := .member rfl
  refine ⟨hcomplete, (hfollow hcomplete _).2 haccepted,
    fun h => hrefused ((hfollow hcomplete _).1 h), hconverted, ?_, ?_⟩
  · exact (hreached _ _ _ hconverted _ _ (.down htarget (.down hroute (.here _)))).2 _
      (.cons (.key "x") (.cons hwire .nil))
  · exact (hreached _ _ _ hconverted _ _ (.down htarget (.down hroute (.down hhost (.here _))))).2 _
      (.cons (.key "x") (.cons hwire (.cons (.index 1) .nil)))

end Ty

end Attribute

end TypedAttributes
