/-
# The laws of equality of wire values

Equality of wire values is symmetric and transitive, and a value equals itself exactly when no
number in it is `nan`.  The induction is on one value, and carries both laws at once: at a set the
matching of members is symmetric only because equality of members is transitive as well, and the
other way round.

Each kind of payload is compared in a way of its own, and the two sides have to be of one kind.  So
each kind takes one lemma, which says what its payloads are compared by.
-/
import TypedAttributes.Wire.Equality
import TypedAttributes.Proofs.PartialEquivalence
import TypedAttributes.Proofs.Wire.Form

namespace TypedAttributes

lemma Double.partialEquivAt_equal (a : Double) : PartialEquivAt Double.equal a :=
  ⟨equal_comm a, equal_trans⟩

lemma Scalar.partialEquivAt_equal (content : Scalar) : PartialEquivAt Scalar.equal content := by
  cases content with
  | string text =>
    refine (PartialEquivAt.of_beq text).of_built (fun _ _ => rfl) fun _ other h => ?_
    cases other <;> simp_all [equal]
  | number value =>
    refine value.partialEquivAt_equal.of_built (fun _ _ => rfl) fun _ other h => ?_
    cases other <;> simp_all [equal]
  | bool value =>
    refine (PartialEquivAt.of_beq value).of_built (fun _ _ => rfl) fun _ other h => ?_
    cases other <;> simp_all [equal]

namespace Wire

/-! ## How payloads are compared -/

lemma itemsEqual_eq_isEqv (xs ys : List Value) : itemsEqual xs ys = xs.isEqv ys Value.equal := by
  induction xs generalizing ys with
  | nil => cases ys <;> rfl
  | cons x xs ih => cases ys <;> simp [itemsEqual, List.isEqv, ih]

lemma entriesEqual_eq_isEqv (xs ys : List (String × Value)) :
    entriesEqual xs ys = xs.isEqv ys fun x y => x.1 == y.1 && x.2.equal y.2 := by
  induction xs generalizing ys with
  | nil => cases ys <;> rfl
  | cons x xs ih => cases ys <;> simp [entriesEqual, List.isEqv, ih]

namespace Payload

lemma equal_list (xs ys : List Value) : (list xs).equal (list ys) = xs.isEqv ys Value.equal :=
  itemsEqual_eq_isEqv xs ys

lemma equal_set (xs ys : List Value) : (set xs).equal (set ys) = matched Value.equal xs ys :=
  membersEqual_eq_matched xs ys

lemma equal_map (xs ys : List (String × Value)) :
    (map xs).equal (map ys) = xs.isEqv ys fun x y => x.1 == y.1 && x.2.equal y.2 :=
  entriesEqual_eq_isEqv xs ys

/-- Equality is a partial equivalence at a payload as soon as it is one at its children. -/
lemma partialEquivAt_equal {payload : Payload}
    (h : ∀ child ∈ payload.children, PartialEquivAt Value.equal child) :
    PartialEquivAt Payload.equal payload := by
  cases payload with
  | scalar content =>
    refine content.partialEquivAt_equal.of_built (fun _ _ => rfl) fun _ other hother => ?_
    cases other <;> simp_all [equal]
  | list items =>
    refine (PartialEquivAt.isEqv h).of_built equal_list fun _ other hother => ?_
    cases other <;> simp_all [equal]
  | set members =>
    refine (PartialEquivAt.matched h).of_built equal_set fun _ other hother => ?_
    cases other <;> simp_all [equal]
  | map entries =>
    have hentries : ∀ entry ∈ entries,
        PartialEquivAt (fun x y : String × Value => x.1 == y.1 && x.2.equal y.2) entry :=
      fun entry hentry => .entry (h entry.2 (List.mem_map_of_mem hentry))
    refine (PartialEquivAt.isEqv hentries).of_built equal_map fun _ other hother => ?_
    cases other <;> simp_all [equal]

/-- Equal payloads are of one kind, and their children are equal after a rearrangement. -/
lemma exists_perm_of_equal {p q : Payload} (h : p.equal q = true) :
    p.kind = q.kind ∧ ∃ arranged, List.Forall₂ (fun x y => x.equal y = true) p.children arranged ∧
      arranged.Perm q.children := by
  cases p with
  | scalar a =>
    cases q with
    | scalar b =>
      refine ⟨?_, [], .nil, .refl _⟩
      cases a <;> cases b <;> simp_all [equal, Scalar.equal, kind, Scalar.kind]
    | _ => simp [equal] at h
  | list xs =>
    cases q with
    | list ys =>
      rw [equal_list, isEqv_iff_forall₂] at h
      exact ⟨rfl, ys, h, .refl _⟩
    | _ => simp [equal] at h
  | set xs =>
    cases q with
    | set ys =>
      rw [equal_set] at h
      obtain ⟨zs, hperm, hzs⟩ := exists_perm_of_matched h
      exact ⟨rfl, zs, hzs, hperm⟩
    | _ => simp [equal] at h
  | map xs =>
    cases q with
    | map ys =>
      rw [equal_map, isEqv_iff_forall₂] at h
      refine ⟨rfl, ys.map Prod.snd, ?_, .refl _⟩
      rw [children_map, List.forall₂_map_left_iff, List.forall₂_map_right_iff]
      exact h.imp fun x y hxy => (Bool.and_eq_true_iff.1 hxy).2
    | _ => simp [equal] at h

/-- Whether a payload is a number that is `nan`. -/
def isNaN : Payload → Bool
  | .scalar (.number value) => value.isNaN
  | _ => false

/-- A payload equals itself when it is not `nan` and its children equal themselves. -/
lemma equal_self_iff {payload : Payload}
    (h : ∀ child ∈ payload.children, PartialEquivAt Value.equal child) :
    payload.equal payload = true ↔
      payload.isNaN = false ∧ ∀ child ∈ payload.children, child.equal child = true := by
  cases payload with
  | scalar content => cases content <;> simp [equal, Scalar.equal, isNaN, Double.equal_self]
  | list items => simp [equal_list, isEqv_self_iff, isNaN]
  | set members =>
    have hmembers : ∀ member ∈ members, PartialEquivAt Value.equal member := h
    rw [equal_set, matched_self_iff hmembers]
    simp [isNaN]
  | map entries =>
    simp only [equal_map, isEqv_self_iff, beq_self_eq_true, Bool.true_and, isNaN, true_and,
      children_map, List.forall_mem_map]

end Payload

namespace Value

/-- Equality of wire values is a partial equivalence. -/
lemma partialEquivAt_equal (value : Value) : PartialEquivAt Value.equal value := by
  induction value using Value.induction with
  | step value ih =>
    have hpayload : ∀ payload, value.state = .known payload →
        PartialEquivAt Payload.equal payload := by
      intro payload hstate
      rcases value with _ | ⟨ty, state⟩
      · cases hstate
      · cases hstate
        exact Payload.partialEquivAt_equal ih
    have hty := (PartialEquivAt.of_beq value.ty?).comap (f := ty?)
    have hstate := (PartialEquivAt.state hpayload).comap (f := Value.state)
    rw [show Value.equal = _ from funext₂ equal_eq]
    exact hty.and hstate

/-- Equal values are the same if they are not known, and else known values of one type with equal
payloads. -/
lemma equal_cases {a b : Value} (h : a.equal b = true) :
    a = b ∧ a.payload? = none ∨ ∃ ty p q, a = known ty p ∧ b = known ty q ∧ p.equal q = true := by
  rcases a with _ | ⟨s, _ | _ | p⟩ <;> rcases b with _ | ⟨t, _ | _ | q⟩ <;>
    simp only [equal, Bool.and_eq_true, beq_iff_eq, Bool.false_eq_true] at h
  · exact Or.inl ⟨rfl, rfl⟩
  · exact Or.inl ⟨by rw [h], rfl⟩
  · exact Or.inl ⟨by rw [h], rfl⟩
  · exact Or.inr ⟨s, p, q, rfl, by rw [known, h.1], h.2⟩

/-- Equal values are of one form. -/
lemma sameForm_of_equal {a b : Value} (h : a.equal b = true) : SameForm a b := by
  induction a using Value.induction generalizing b with
  | step a ih =>
    obtain ⟨rfl, ha⟩ | ⟨ty, p, q, rfl, rfl, hpq⟩ := equal_cases h
    · exact .of_payload?_eq_none ha
    · obtain ⟨hkind, arranged, hchildren, hperm⟩ := Payload.exists_perm_of_equal hpq
      refine .known ty hkind (forall₂_imp_of_mem hchildren fun x hx y _ hxy => ?_) hperm
      exact ih x hx hxy

/-- Whether no known number in a value is `nan`. -/
def nanFree (value : Value) : Bool := value.all fun node => !node.payload?.any Payload.isNaN

/-- A value equals itself when its payload does, if it has one. -/
lemma equal_self_iff_payload (value : Value) :
    value.equal value = true ↔ ∀ payload, value.payload? = some payload →
      payload.equal payload = true := by
  rcases value with _ | ⟨ty, _ | _ | payload⟩ <;>
    simp [equal, payload?, state, State.known?]

lemma nanFree_iff {value : Value} :
    value.nanFree = true ↔ ∀ payload, value.payload? = some payload →
      payload.isNaN = false ∧ ∀ child ∈ payload.children, child.nanFree = true := by
  rw [nanFree, all_iff]
  rcases value with _ | ⟨ty, _ | _ | payload⟩ <;>
    simp [payload?, state, State.known?, children, nanFree]

lemma equal_self_iff (value : Value) : value.equal value = true ↔ value.nanFree = true := by
  induction value using Value.induction with
  | step value ih =>
    rw [equal_self_iff_payload, nanFree_iff]
    refine forall₂_congr fun payload hpayload => ?_
    rw [Payload.equal_self_iff fun child _ => child.partialEquivAt_equal]
    refine and_congr_right fun _ => forall₂_congr fun child hchild => ih child ?_
    rwa [children_of_payload? hpayload]

end Value

/-- Equality of wire values is symmetric and transitive, and a value equals itself exactly when no
known number in it is `nan`. -/
theorem equal_partialEquivalence :
    (∀ a b : Value, a.equal b = true → b.equal a = true) ∧
      (∀ a b c : Value, a.equal b = true → b.equal c = true → a.equal c = true) ∧
      ∀ a : Value, a.equal a = true ↔ a.nanFree = true :=
  ⟨fun a _ hab => a.partialEquivAt_equal.symm hab,
    fun a _ _ hab hbc => a.partialEquivAt_equal.trans hab hbc, Value.equal_self_iff⟩

/-- A set of two numbers. -/
def Value.twoNumbers (first second : Double) : Value :=
  .set (.scalar .number) [.scalar (.number first), .scalar (.number second)]

/-- Neither the order of the members nor the sign of zero matters; a set with a `nan` in it differs
from itself. -/
theorem equal_partialEquivalence_twoNumbers :
    let a := Value.twoNumbers (.ofRank false 0) (.infinite true)
    let b := Value.twoNumbers (.infinite true) (.ofRank true 0)
    let c := Value.twoNumbers (.ofRank true 0) (.infinite true)
    let d := Value.twoNumbers (.ofRank true 0) .nan
    a.equal b = true ∧ b.equal c = true ∧ b.equal a = true ∧ a.equal c = true ∧
      a.equal a = true ∧ ¬ d.equal d = true := by
  intro a b c d
  have hab : a.equal b = true := by decide
  have hbc : b.equal c = true := by decide
  refine ⟨hab, hbc, equal_partialEquivalence.1 a b hab, equal_partialEquivalence.2.1 a b c hab hbc,
    (equal_partialEquivalence.2.2 a).2 (by decide), fun h => ?_⟩
  exact absurd ((equal_partialEquivalence.2.2 d).1 h) (by decide)

end Wire

end TypedAttributes
