/-
# The laws of equality of typed values

Equality of typed values is symmetric and transitive.  A value equals itself exactly when no number
in it is `nan` and every type that it carries is complete: a collection that lacks its element type,
or carries one that lacks one further down, equals nothing, whatever is in it, and so does a value
of a custom type with such a base.

As with wire values the induction is on one value and carries both laws.  Each constructor takes one
lemma, which says what its values are compared by.  What comes of that for collections is stated
apart: lists are compared item by item, maps key by key, and neither maps nor sets by the order of
what is in them.
-/
import TypedAttributes.Proofs.PartialEquivalence
import TypedAttributes.Proofs.Attribute.TypeEquality
import TypedAttributes.Proofs.Attribute.ValueEquality
import TypedAttributes.Proofs.Wire.Equality

namespace TypedAttributes.Attribute

variable {ρ : Type}

/-! ## Types that values carry -/

namespace Ty

lemma partialEquivAt_elementsEqual (element : Option (Ty ρ)) :
    PartialEquivAt elementsEqual element where
  comm other := by
    rcases element with _ | a <;> rcases other with _ | b <;> simp [elementsEqual, equal_comm]
  trans {b c} hab hbc := by
    rcases element with _ | a <;> rcases b with _ | b <;> rcases c with _ | c
    case some.some.some => exact equal_trans hab hbc
    all_goals simp_all [elementsEqual]

lemma elementsEqual_self (element : Option (Ty ρ)) :
    elementsEqual element element = element.any isComplete := by
  cases element <;> simp [elementsEqual, equal_self]

end Ty

/-! ## How values are compared -/

lemma itemsEqual_eq_isEqv (xs ys : List (Value ρ)) :
    itemsEqual xs ys = xs.isEqv ys Value.equal := by
  rw [Bool.eq_iff_iff, itemsEqual_iff, isEqv_iff_forall₂]

namespace Value

lemma equal_list (a b : Option (Ty ρ)) (s t : State (List (Value ρ))) :
    (list a s).equal (list b t) =
      (Ty.elementsEqual a b && State.equal (fun xs ys => xs.isEqv ys Value.equal) s t) := by
  cases s <;> cases t <;> simp [equal, State.equal, itemsEqual_eq_isEqv]

lemma equal_set (a b : Option (Ty ρ)) (s t : State (List (Value ρ))) :
    (set a s).equal (set b t) =
      (Ty.elementsEqual a b && State.equal (matched Value.equal) s t) := by
  cases s <;> cases t <;> simp [equal, State.equal, membersEqual_eq_matched]

lemma equal_map (a b : Option (Ty ρ)) (s t : State (List (String × Value ρ))) :
    (map a s).equal (map b t) = (Ty.elementsEqual a b && State.equal (matched entryEqual) s t) := by
  cases s <;> cases t <;> simp [equal, State.equal, entriesEqual_eq_matched]

lemma equal_scalar (j k : Scalar.Kind) (s : State j.Content) (t : State k.Content) :
    (scalar j s : Value ρ).equal (scalar k t) =
      (j == k && State.equal Scalar.equal (s.map j.wrap) (t.map k.wrap)) := rfl

/-- Equality is a partial equivalence at a collection if what its contents are compared by is
one. -/
lemma partialEquivAt_collection {γ : Type} {contents : γ → γ → Bool}
    {build : Option (Ty ρ) → State γ → Value ρ} (element : Option (Ty ρ)) {state : State γ}
    (hbuild : ∀ a b s t,
      (build a s).equal (build b t) = (Ty.elementsEqual a b && State.equal contents s t))
    (hrange : ∀ a s other, (build a s).equal other = true ∨ other.equal (build a s) = true →
      ∃ b t, build b t = other)
    (h : ∀ content, state = .known content → PartialEquivAt contents content) :
    PartialEquivAt Value.equal (build element state) := by
  have helement := Ty.partialEquivAt_elementsEqual element
  have hparts : PartialEquivAt (fun x y : Option (Ty ρ) × State γ =>
      Ty.elementsEqual x.1 y.1 && State.equal contents x.2 y.2) (element, state) :=
    (helement.comap (f := Prod.fst)).and ((PartialEquivAt.state h).comap (f := Prod.snd))
  refine hparts.of_built (fun x y => hbuild x.1 y.1 x.2 y.2) fun x other hother => ?_
  obtain ⟨b, t, rfl⟩ := hrange x.1 x.2 other hother
  exact ⟨(b, t), rfl⟩

lemma partialEquivAt_scalar (kind : Scalar.Kind) (state : State kind.Content) :
    PartialEquivAt Value.equal (scalar kind state : Value ρ) := by
  have hstate : PartialEquivAt (State.equal Scalar.equal) (state.map kind.wrap) :=
    .state fun content _ => content.partialEquivAt_equal
  have hparts : PartialEquivAt (fun x y : (kind : Scalar.Kind) × State kind.Content =>
      x.1 == y.1 && State.equal Scalar.equal (x.2.map x.1.wrap) (y.2.map y.1.wrap)) ⟨kind, state⟩ :=
    ((PartialEquivAt.of_beq kind).comap (f := Sigma.fst)).and
      (hstate.comap (f := fun x : (kind : Scalar.Kind) × State kind.Content => x.2.map x.1.wrap))
  refine hparts.of_built (fun x y => equal_scalar x.1 y.1 x.2 y.2) fun x other hother => ?_
  cases other with
  | scalar k t => exact ⟨⟨k, t⟩, rfl⟩
  | _ => simp [equal] at hother

lemma partialEquivAt_custom (name : String) (base : Ty ρ) (validation : Validation ρ)
    {inner : Value ρ} (h : PartialEquivAt Value.equal inner) :
    PartialEquivAt Value.equal (custom name base validation inner) where
  comm other := by
    cases other with
    | custom m b v y => simp only [equal, h.comm y, Ty.equal_comm base b, Bool.beq_comm]
    | _ => simp [equal]
  trans {y z} hy hz := by
    cases y with
    | custom m b v y =>
      cases z with
      | custom n c w z =>
        simp only [equal, Bool.and_eq_true, beq_iff_eq] at hy hz ⊢
        obtain ⟨⟨rfl, hbase⟩, hinner⟩ := hy
        obtain ⟨⟨rfl, hbase'⟩, hinner'⟩ := hz
        exact ⟨⟨rfl, Ty.equal_trans hbase hbase'⟩, h.trans hinner hinner'⟩
      | _ => simp [equal] at hz
    | _ => simp [equal] at hy

/-- Equality of typed values is a partial equivalence. -/
lemma partialEquivAt_equal (value : Value ρ) : PartialEquivAt Value.equal value := by
  induction value using Value.induction with
  | step value ih =>
    cases value with
    | scalar kind state => exact partialEquivAt_scalar kind state
    | list element state =>
      refine partialEquivAt_collection element equal_list ?_ ?_
      · intro a s other hother
        cases other <;> simp_all [equal]
      · rintro items rfl
        exact .isEqv ih
    | map element state =>
      refine partialEquivAt_collection element equal_map ?_ ?_
      · intro a s other hother
        cases other <;> simp_all [equal]
      · rintro entries rfl
        exact .matched fun entry hentry => .entry (ih entry.2 (List.mem_map_of_mem hentry))
    | set element state =>
      refine partialEquivAt_collection element equal_set ?_ ?_
      · intro a s other hother
        cases other <;> simp_all [equal]
      · rintro members rfl
        exact .matched ih
    | custom name base validation inner =>
      exact partialEquivAt_custom name base validation (ih inner (List.mem_singleton_self inner))

/-! ## What equals itself -/

/-- Whether a value is a number that is `nan`. -/
def isNaN : Value ρ → Bool
  | .scalar .number (.known number) => Double.isNaN number
  | _ => false

/-- Whether the type that a value carries for what is in it is there and complete: the element type
of a collection, the base of a custom type. -/
def carriesComplete : Value ρ → Bool
  | .scalar _ _ => true
  | .list element _ => element.any Ty.isComplete
  | .map element _ => element.any Ty.isComplete
  | .set element _ => element.any Ty.isComplete
  | .custom _ base _ _ => base.isComplete

/-- Whether every type that is carried in a value is there and complete. -/
def typesComplete (value : Value ρ) : Bool := value.all carriesComplete

lemma nanFree_iff {value : Value ρ} :
    value.nanFree = true ↔ value.isNaN = false ∧ ∀ part ∈ value.parts, part.nanFree = true := by
  rw [nanFree, all_iff]
  refine and_congr_left fun _ => ?_
  cases value with
  | scalar kind state => cases kind <;> cases state <;> simp [isNaN]
  | _ => simp [isNaN]

/-- A value equals itself when it is not `nan`, carries a complete type, and its parts equal
themselves. -/
lemma equal_self_iff_parts (value : Value ρ) :
    value.equal value = true ↔
      value.isNaN = false ∧ value.carriesComplete = true ∧
        ∀ part ∈ value.parts, part.equal part = true := by
  cases value with
  | scalar kind state =>
    cases kind <;> cases state <;>
      simp [equal_scalar, State.map, State.equal, Scalar.Kind.wrap, Scalar.equal, isNaN,
        carriesComplete, parts, Double.equal_self]
  | list element state =>
    rw [equal_list, Bool.and_eq_true, Ty.elementsEqual_self]
    cases state <;> simp [State.equal, isEqv_self_iff, isNaN, carriesComplete, parts]
  | map element state =>
    rw [equal_map, Bool.and_eq_true, Ty.elementsEqual_self]
    rcases state with _ | _ | entries
    · simp [State.equal, isNaN, carriesComplete, parts]
    · simp [State.equal, isNaN, carriesComplete, parts]
    · have hentries : ∀ entry ∈ entries, PartialEquivAt entryEqual entry :=
        fun entry _ => .entry (partialEquivAt_equal entry.2)
      rw [State.equal, matched_self_iff hentries]
      simp only [isNaN, carriesComplete, parts, true_and, List.forall_mem_map, entryEqual,
        beq_self_eq_true, Bool.true_and]
  | set element state =>
    rw [equal_set, Bool.and_eq_true, Ty.elementsEqual_self]
    rcases state with _ | _ | members
    · simp [State.equal, isNaN, carriesComplete, parts]
    · simp [State.equal, isNaN, carriesComplete, parts]
    · rw [State.equal, matched_self_iff fun member _ => partialEquivAt_equal member]
      simp [isNaN, carriesComplete, parts]
  | custom name base validation inner =>
    simp [equal, Ty.equal_self, isNaN, carriesComplete, parts]

lemma equal_self_iff (value : Value ρ) :
    value.equal value = true ↔ value.nanFree = true ∧ value.typesComplete = true := by
  induction value using Value.induction with
  | step value ih =>
    have hparts : (∀ part ∈ value.parts, part.equal part = true) ↔
        (∀ part ∈ value.parts, part.nanFree = true) ∧
          ∀ part ∈ value.parts, part.typesComplete = true := by
      rw [← forall₂_and]
      exact forall₂_congr ih
    rw [equal_self_iff_parts, hparts, nanFree_iff, typesComplete, all_iff]
    change _ ↔ _ ∧ _ ∧ ∀ part ∈ value.parts, part.typesComplete = true
    tauto

/-! ## What order means -/

/-- Lists are compared item by item. -/
lemma equal_list_known_iff {a b : Option (Ty ρ)} {xs ys : List (Value ρ)} :
    (list a (.known xs)).equal (list b (.known ys)) = true ↔
      Ty.elementsEqual a b = true ∧ List.Forall₂ (fun x y => x.equal y = true) xs ys := by
  rw [equal_list_known, Bool.and_eq_true, itemsEqual_iff]

/-- Maps with distinct keys are compared key by key. -/
lemma equal_map_known_iff {a b : Option (Ty ρ)} {xs ys : List (String × Value ρ)}
    (hxs : Keyed.Distinct xs) (hys : Keyed.Distinct ys) :
    (map a (.known xs)).equal (map b (.known ys)) = true ↔
      Ty.elementsEqual a b = true ∧
        ∀ key, Option.Rel (fun x y => x.equal y = true) (xs.lookup key) (ys.lookup key) := by
  rw [equal_map_known, Bool.and_eq_true, entriesEqual_iff_lookup hxs hys]

/-- Maps are compared independently of the order of their entries. -/
lemma equal_map_perm {element : Option (Ty ρ)} {xs ws : List (String × Value ρ)}
    (hperm : ws.Perm xs) (other : Value ρ) :
    (map element (.known ws)).equal other = (map element (.known xs)).equal other := by
  have hentries : ∀ entry ∈ xs, PartialEquivAt entryEqual entry :=
    fun entry _ => .entry (partialEquivAt_equal entry.2)
  cases other with
  | map b t =>
    rw [equal_map, equal_map]
    cases t with
    | known ys => rw [State.equal, State.equal, matched_congr_perm hentries hperm]
    | _ => rfl
  | _ => simp [equal]

/-- Sets are compared independently of the order of their members. -/
lemma equal_set_perm {element : Option (Ty ρ)} {xs ws : List (Value ρ)} (hperm : ws.Perm xs)
    (other : Value ρ) :
    (set element (.known ws)).equal other = (set element (.known xs)).equal other := by
  cases other with
  | set b t =>
    rw [equal_set, equal_set]
    cases t with
    | known ys =>
      rw [State.equal, State.equal, matched_congr_perm (fun x _ => partialEquivAt_equal x) hperm]
    | _ => rfl
  | _ => simp [equal]

end Value

open Value in
/-- Equality of typed values is symmetric and transitive, and a value equals itself exactly when no
known number in it is `nan` and every element type and base type that is carried in it is there and
complete.  Lists are compared in order, maps key by key, and neither maps nor sets by their
order. -/
theorem equal_symm_trans_self :
    (∀ a b : Value ρ, a.equal b = true → b.equal a = true) ∧
      (∀ a b c : Value ρ, a.equal b = true → b.equal c = true → a.equal c = true) ∧
      (∀ a : Value ρ, a.equal a = true ↔ a.nanFree = true ∧ a.typesComplete = true) ∧
      (∀ (a b : Option (Ty ρ)) (xs ys : List (Value ρ)),
        (list a (.known xs)).equal (list b (.known ys)) = true ↔
          Ty.elementsEqual a b = true ∧ List.Forall₂ (fun x y => x.equal y = true) xs ys) ∧
      (∀ (a b : Option (Ty ρ)) (xs ys : List (String × Value ρ)),
        Keyed.Distinct xs → Keyed.Distinct ys →
          ((map a (.known xs)).equal (map b (.known ys)) = true ↔
            Ty.elementsEqual a b = true ∧
              ∀ key, Option.Rel (fun x y => x.equal y = true) (xs.lookup key) (ys.lookup key))) ∧
      (∀ (a : Option (Ty ρ)) (xs ws : List (String × Value ρ)) (other : Value ρ), ws.Perm xs →
        (map a (.known ws)).equal other = (map a (.known xs)).equal other) ∧
      ∀ (a : Option (Ty ρ)) (xs ws : List (Value ρ)) (other : Value ρ), ws.Perm xs →
        (set a (.known ws)).equal other = (set a (.known xs)).equal other := by
  refine ⟨fun a _ hab => a.partialEquivAt_equal.symm hab,
    fun a _ _ hab hbc => a.partialEquivAt_equal.trans hab hbc, Value.equal_self_iff,
    fun _ _ _ _ => equal_list_known_iff, fun _ _ _ _ hxs hys => equal_map_known_iff hxs hys, ?_, ?_⟩
  · intro a xs ws other hperm
    exact equal_map_perm hperm other
  · intro a xs ws other hperm
    exact equal_set_perm hperm other

/-- A custom type of limits. -/
def Ty.limit : Ty Empty := .custom "Limit" (.scalar .number) .none

/-- Limits by name. -/
def Value.limits (entries : List (String × Double)) : List (String × Value Empty) :=
  Keyed.mapValues
    (fun limit => .custom "Limit" (.scalar .number) .ofBase (.scalar .number (.known limit)))
    entries

/-- A null list whose element type lacks an element type of its own. -/
def Value.nullOfSets : Value Empty := .list (some (.bare .set)) .null

/-- Limits in either order are equal, name by name and as members of a set. -/
theorem equal_symm_trans_self_limits :
    let xs := Value.limits [("low", .ofRank false 0), ("high", .infinite false)]
    let ys := Value.limits [("high", .infinite false), ("low", .ofRank true 0)]
    let zs := Value.limits [("low", .ofRank true 0), ("high", .infinite false)]
    let a := Value.map (some Ty.limit) (.known xs)
    let b := Value.map (some Ty.limit) (.known ys)
    let c := Value.map (some Ty.limit) (.known zs)
    let members := [a, .map (some Ty.limit) .null]
    let group := Value.set (some (.collection .map Ty.limit)) (.known members)
    a.equal b = true ∧ b.equal c = true ∧ b.equal a = true ∧ a.equal c = true ∧ a.equal a = true ∧
      (¬ Value.nullOfSets.equal Value.nullOfSets = true) ∧
      Keyed.Distinct xs ∧ Keyed.Distinct ys ∧
      (∀ key, Option.Rel (fun x y => x.equal y = true) (xs.lookup key) (ys.lookup key)) ∧
      ys.Perm zs ∧ b.equal a = c.equal a ∧
      members.reverse.Perm members ∧
      (Value.set (some (.collection .map Ty.limit)) (.known members.reverse)).equal group =
        group.equal group := by
  intro xs ys zs a b c members group
  obtain ⟨hsymm, htrans, hself, -, hkeys, hmapPerm, hsetPerm⟩ := @equal_symm_trans_self Empty
  have hab : a.equal b = true := by decide
  have hbc : b.equal c = true := by decide
  have hxs : Keyed.Distinct xs := by decide
  have hys : Keyed.Distinct ys := by decide
  have hperm : ys.Perm zs := List.Perm.swap _ _ _
  have hreverse : members.reverse.Perm members := List.reverse_perm members
  refine ⟨hab, hbc, hsymm a b hab, htrans a b c hab hbc, (hself a).2 (by decide),
    fun h => ?_, hxs, hys,
    ((hkeys _ _ xs ys hxs hys).1 hab).2, hperm, hmapPerm _ zs ys a hperm, hreverse,
    hsetPerm _ members members.reverse group hreverse⟩
  exact absurd ((hself _).1 h) (by decide)

end TypedAttributes.Attribute
