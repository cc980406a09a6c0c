/-
# Values with their missing types filled in

A node without a type stands for a null of whatever type is expected in its place.  `Value.filled`
writes that null out, at every depth and for the type that the place expects, and leaves all else as
it is.
-/
import TypedAttributes.Proofs.Wire.Checked

namespace TypedAttributes.Wire

/-- A payload with a function applied to each child. -/
def Payload.mapChildren (f : Value → Value) : Payload → Payload
  | .scalar content => .scalar content
  | .list items => .list (items.map f)
  | .set members => .set (members.map f)
  | .map entries => .map (Keyed.mapValues f entries)

lemma Payload.mapChildren_eq_self {f : Value → Value} {payload : Payload}
    (h : ∀ child ∈ payload.children, f child = child) : payload.mapChildren f = payload := by
  have hmap : ∀ values : List Value, (∀ value ∈ values, f value = value) → values.map f = values :=
    fun values hvalues => (List.map_congr_left hvalues).trans (List.map_id' values)
  cases payload with
  | scalar content => rfl
  | list items => exact congrArg Payload.list (hmap items h)
  | set members => exact congrArg Payload.set (hmap members h)
  | map entries => exact congrArg Payload.map (Keyed.mapValues_eq_self h)

namespace Value

/-- The value with the null of the expected type in the place of every node without a type. -/
def filled : Ty → Value → Value
  | expected, .untyped => .null expected
  | .scalar _, .typed ty state => .typed ty state
  | .collection _ element, .typed ty state =>
    .typed ty (state.map fun payload => payload.mapChildren fun child => filled element child)

/-- Where every node declares a type there is nothing to fill in. -/
lemma filled_eq_self {value : Value} (h : value.fullyTyped = true) (expected : Ty) :
    value.filled expected = value := by
  induction expected generalizing value with
  | scalar kind =>
    rcases value with _ | ⟨ty, state⟩
    · cases h
    · rfl
  | collection shape element ih =>
    rcases value with _ | ⟨ty, _ | _ | payload⟩
    · cases h
    · rfl
    · rfl
    · rw [filled, State.map, Payload.mapChildren_eq_self]
      exact fun child hchild => ih ((all_iff.1 h).2 child hchild)

end Value

end TypedAttributes.Wire
