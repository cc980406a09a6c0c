/-
# What has a JSON form

Two kinds of nodes have no JSON form: a value that is not yet known, and a number that is not
finite.  They are obstacles, and `Value.obstacle?` says which error each of them is.  Declared types
do not matter, nor does it whether a payload fits its type: a value can be encoded exactly when
there is no obstacle in it, that is, when it is fully known and all its numbers are finite.

Otherwise the encoder goes down into the children in their order and stops at the first obstacle in
document order.  As obstacles have no children, none lies in another.  All that is used of the
encoder is `Value.toJson_eq_error_iff`: it fails at a value either because the value is an obstacle
itself or because the encoding of its children, one after another, fails.
-/
import TypedAttributes.Proofs.Wire.DocumentOrder
import TypedAttributes.Proofs.Wire.JsonRoundTrip

namespace TypedAttributes.Wire

namespace Value

/-! ## Obstacles -/

/-- Why a value has no JSON form, apart from what is in it. -/
def obstacle? (value : Value) : Option Error :=
  match value.state with
  | .unknown => some .unknownNotEncodable
  | .known (.scalar (.number number)) =>
    if number.isFinite then none else some (.invalidNumber number)
  | _ => none

/-- Why the node to which a way leads has no JSON form. -/
def obstacleAt? (value : Value) (way : List Nat) : Option Error := (value.node? way).bind obstacle?

variable {value child : Value} {error : Error}

lemma obstacleAt?_cons {position : Nat} (hchild : value.children[position]? = some child)
    (rest : List Nat) : value.obstacleAt? (position :: rest) = child.obstacleAt? rest := by
  rw [obstacleAt?, node?, hchild, Option.bind_some, obstacleAt?]

lemma exists_child_of_obstacleAt? {position : Nat} {rest : List Nat}
    (h : value.obstacleAt? (position :: rest) ≠ none) :
    ∃ child, value.children[position]? = some child ∧ child.obstacleAt? rest ≠ none := by
  cases hchild : value.children[position]? with
  | none =>
    rw [obstacleAt?, node?, hchild] at h
    simp at h
  | some child => exact ⟨child, rfl, by rwa [obstacleAt?_cons hchild] at h⟩

/-- In a value there is nothing unknown and no number that is not finite, when the value is no
obstacle and there is no such thing in its children. -/
lemma fullyKnown_and_numbersFinite_iff : value.isFullyKnown = true ∧ value.numbersFinite = true ↔
    value.obstacle? = none ∧
      ∀ child ∈ value.children, child.isFullyKnown = true ∧ child.numbersFinite = true := by
  rw [isFullyKnown_iff, numbersFinite, all_iff, and_and_and_comm, ← forall₂_and]
  refine and_congr_left fun _ => ?_
  rcases value with _ | ⟨ty, _ | _ | (content | items | members | entries)⟩
  · simp [obstacle?, isKnown, payload?, state, State.isUnknown, State.known?]
  · simp [obstacle?, isKnown, payload?, state, State.isUnknown, State.known?]
  · simp [obstacle?, isKnown, state, State.isUnknown]
  · cases content <;> simp [obstacle?, isKnown, payload?, state, State.isUnknown, State.known?]
  · simp [obstacle?, isKnown, payload?, state, State.isUnknown, State.known?]
  · simp [obstacle?, isKnown, payload?, state, State.isUnknown, State.known?]
  · simp [obstacle?, isKnown, payload?, state, State.isUnknown, State.known?]

end Value

/-! ## Encoding, child by child -/

/-- The encoding of a scalar fails exactly when the scalar is an obstacle. -/
lemma scalarToJson_eq_error_iff (ty : Ty) {content : Scalar} {error : Error} :
    scalarToJson content = .error error ↔
      (Value.known ty (.scalar content)).obstacle? = some error := by
  cases content with
  | string text => simp [scalarToJson, Value.obstacle?, Value.known, Value.state]
  | bool value => simp [scalarToJson, Value.obstacle?, Value.known, Value.state]
  | number number =>
    by_cases hfinite : number.isFinite = true
    · simp [scalarToJson, Json.Number.ofDouble?, Value.obstacle?, Value.known, Value.state, hfinite]
    · simp [scalarToJson, Json.Number.ofDouble?, Value.obstacle?, Value.known, Value.state, hfinite]

namespace Value

variable {value child : Value} {error : Error}

/-- The encoding of a value fails because the value is an obstacle, or as the encoding of its
children does. -/
lemma toJson_eq_error_iff :
    value.toJson = .error error ↔ value.obstacle? = some error ∨
      value.children.mapM toJson = .error error := by
  rcases value with _ | ⟨ty, _ | _ | (content | items | members | entries)⟩
  · simp [toJson, obstacle?, state, children, pure, Except.pure]
  · simp [toJson, obstacle?, state, children, pure, Except.pure]
  · simp [toJson, obstacle?, state, children, pure, Except.pure]
  · rw [toJson, Payload.toJson, scalarToJson_eq_error_iff ty]
    simp [known, children, pure, Except.pure]
  · simp [toJson, Payload.toJson, obstacle?, state, children, itemsToJson_eq, map_eq_error_iff]
  · simp [toJson, Payload.toJson, obstacle?, state, children, itemsToJson_eq, map_eq_error_iff]
  · simp [toJson, Payload.toJson, obstacle?, state, children, entriesToJson_eq, map_eq_error_iff,
      Keyed.traverse_eq_error_iff]

/-- A value is encoded when it is no obstacle and its children are encoded. -/
lemma exists_toJson_iff_children : (∃ json, value.toJson = .ok json) ↔
    value.obstacle? = none ∧ ∀ child ∈ value.children, ∃ json, child.toJson = .ok json := by
  rw [exists_ok_iff, ← exists_mapM_ok_iff, exists_ok_iff, Option.eq_none_iff_forall_ne_some,
    ← forall_and]
  simp only [ne_eq, toJson_eq_error_iff, not_or]

/-- A value is encoded exactly when there is nothing unknown in it and no number that is not
finite. -/
lemma exists_toJson_iff (value : Value) : (∃ json, value.toJson = .ok json) ↔
    value.isFullyKnown = true ∧ value.numbersFinite = true := by
  induction value using Value.induction with
  | step value ih =>
    rw [exists_toJson_iff_children, fullyKnown_and_numbersFinite_iff]
    refine and_congr_right fun _ => ?_
    exact forall₂_congr ih

/-- In a value that is encoded there is no obstacle. -/
lemma obstacleAt?_of_toJson {json : Json} (h : value.toJson = .ok json) (way : List Nat) :
    value.obstacleAt? way = none := by
  induction way generalizing value json with
  | nil => exact (exists_toJson_iff_children.1 ⟨json, h⟩).1
  | cons position rest ih =>
    cases hchild : value.children[position]? with
    | none => simp [obstacleAt?, node?, hchild]
    | some child =>
      have hchildren := (exists_toJson_iff_children.1 ⟨json, h⟩).2
      obtain ⟨document, hdocument⟩ := hchildren child (List.mem_of_getElem? hchild)
      rw [obstacleAt?_cons hchild]
      exact ih hdocument

/-! ## The first obstacle -/

/-- Whether an error is that of an obstacle before which, in document order, there is no other. -/
def FirstObstacle (value : Value) (error : Error) : Prop :=
  ∃ way, value.obstacleAt? way = some error ∧
    value.IsFirst (fun other => value.obstacleAt? other ≠ none) way

/-- The encoding fails at the first obstacle: at the value itself, or in the first child that is not
encoded. -/
lemma firstObstacle_of_toJson (h : value.toJson = .error error) : value.FirstObstacle error := by
  induction value using Value.induction generalizing error with
  | step value ih =>
    cases hroot : value.obstacle? with
    | some found =>
      obtain rfl : found = error :=
        Except.error.inj ((toJson_eq_error_iff.2 (Or.inl hroot)).symm.trans h)
      have hobstacle : value.obstacleAt? [] = some found := hroot
      exact ⟨[], hobstacle, isFirst_root (by simp [hobstacle])⟩
    | none =>
      have hnone : ¬ value.obstacleAt? [] ≠ none := not_not_intro hroot
      have hchildren := (toJson_eq_error_iff.1 h).resolve_left (by simp [hroot])
      obtain ⟨before, child, after, hsplit, hbefore, hfail⟩ := mapM_eq_error_iff.1 hchildren
      have hchild : value.children[before.length]? = some child := by simp [hsplit]
      have hbelow (rest : List Nat) :
          value.obstacleAt? (before.length :: rest) = child.obstacleAt? rest :=
        obstacleAt?_cons hchild rest
      -- the earlier children are encoded, so there is no obstacle in them
      have hearlier (i : Nat) (hi : i < before.length) (rest : List Nat) :
          ¬ value.obstacleAt? (i :: rest) ≠ none := by
        intro hother
        obtain ⟨earlier, hfound, hother⟩ := exists_child_of_obstacleAt? hother
        rw [hsplit, List.getElem?_append_left hi] at hfound
        obtain ⟨json, hjson⟩ := hbefore earlier (List.mem_of_getElem? hfound)
        exact hother (obstacleAt?_of_toJson hjson rest)
      obtain ⟨way, hway, hfirst⟩ := ih child (List.mem_of_getElem? hchild) hfail
      have hinside :
          child.IsFirst (fun rest => value.obstacleAt? (before.length :: rest) ≠ none) way := by
        simpa only [hbelow] using hfirst
      exact ⟨before.length :: way, (hbelow way).trans hway, .below hnone hearlier hchild hinside⟩

/-- The error of an encoding is that of the first obstacle, and where there is a first obstacle the
encoding fails with its error. -/
lemma toJson_eq_error_iff_firstObstacle :
    value.toJson = .error error ↔ value.FirstObstacle error := by
  refine ⟨firstObstacle_of_toJson, ?_⟩
  rintro ⟨way, hway, hfirst⟩
  cases h : value.toJson with
  | ok json => simp [obstacleAt?_of_toJson h way] at hway
  | error found =>
    obtain ⟨other, hother, hfirst'⟩ := firstObstacle_of_toJson h
    obtain rfl := hfirst.unique hfirst'
    rw [Option.some.inj (hway.symm.trans hother)]

/-- A value has a JSON form exactly when it is fully known and all its numbers are finite.
Otherwise the error is that of the first obstacle in document order: that nothing unknown can be
encoded, or the number that is not finite. -/
theorem toJson_first_obstacle (value : Value) :
    ((∃ json, value.toJson = .ok json) ↔ value.isFullyKnown = true ∧ value.numbersFinite = true) ∧
    ∀ error, value.toJson = .error error ↔
      ∃ way, value.obstacleAt? way = some error ∧
        ∀ other, value.obstacleAt? other ≠ none → other ≠ way → value.Before way other := by
  refine ⟨exists_toJson_iff value, fun error => ?_⟩
  rw [toJson_eq_error_iff_firstObstacle, FirstObstacle]
  refine exists_congr fun way => and_congr_right fun hway => ?_
  have hobstacle : value.obstacleAt? way ≠ none := by simp [hway]
  exact and_iff_right hobstacle

/-- Weights by name, of which the first ones are a missing one and an infinite one that is declared
to be a text; the second ones are given. -/
def weightsByName (other : Value) : Value :=
  let weight : Ty := .scalar .number
  .known (.collection .map (.collection .list weight)) (.map
    [("a", .list weight [.untyped, .known (.scalar .string) (.scalar (.number (.infinite true)))]),
      ("b", other)])

/-- When the second weights are not known there are two obstacles.  The infinite weight comes first,
though it is further down.  Missing weights of no type are not an obstacle. -/
theorem toJson_first_obstacle_weightsByName :
    let value := weightsByName (.unknown (.collection .list (.scalar .number)))
    let error := Error.invalidNumber (.infinite true)
    (∃ json, (Value.list (.scalar .number) [.untyped]).toJson = .ok json) ∧
      value.toJson = .error error ∧ value.obstacleAt? [1] = some .unknownNotEncodable ∧
      ∃ way, value.obstacleAt? way = some error ∧ value.Before way [1] := by
  intro value error
  have hvalue : value.toJson = .error error := rfl
  have hunknown : value.obstacleAt? [1] = some .unknownNotEncodable := rfl
  have hmissing := (toJson_first_obstacle (.list (.scalar .number) [.untyped])).1.2 ⟨rfl, rfl⟩
  obtain ⟨way, hway, hfirst⟩ := ((toJson_first_obstacle value).2 error).1 hvalue
  refine ⟨hmissing, hvalue, hunknown, way, hway, hfirst [1] (by simp [hunknown]) ?_⟩
  rintro rfl
  exact absurd (hunknown.symm.trans hway) (by decide)

end Value

end TypedAttributes.Wire
