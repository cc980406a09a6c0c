/-
# Encoding typed values

A typed value is encoded as a wire value of the wire type of its own type.  The entries of a map are
put in ascending order of their keys, and custom types do not show.
-/
import TypedAttributes.Attribute.Value
import TypedAttributes.Wire.Value

namespace TypedAttributes.Attribute

variable {ρ : Type}

mutual

/-- Encodes a typed value as a wire value.  A collection without an element type cannot be
encoded. -/
def Value.toWire : Value ρ → Except Error Wire.Value
  | .scalar kind state =>
    .ok (.typed (.scalar kind) (state.map fun content => .scalar (kind.wrap content)))
  | .list element .null => do return .null (← (Ty.ofElement .list element).wireTy)
  | .list element .unknown => do return .unknown (← (Ty.ofElement .list element).wireTy)
  | .list element (.known items) => do
    let ty ← (Ty.ofElement .list element).wireTy
    return .known ty (.list (← itemsToWire items))
  | .map element .null => do return .null (← (Ty.ofElement .map element).wireTy)
  | .map element .unknown => do return .unknown (← (Ty.ofElement .map element).wireTy)
  | .map element (.known entries) => do
    let ty ← (Ty.ofElement .map element).wireTy
    return .known ty (.ofEntries (← entriesToWire entries))
  | .set element .null => do return .null (← (Ty.ofElement .set element).wireTy)
  | .set element .unknown => do return .unknown (← (Ty.ofElement .set element).wireTy)
  | .set element (.known members) => do
    let ty ← (Ty.ofElement .set element).wireTy
    return .known ty (.set (← itemsToWire members))
  | .custom _ _ _ inner => inner.toWire
termination_by structural value => value

/-- Encodes the items of a list or the members of a set. -/
def itemsToWire : List (Value ρ) → Except Error (List Wire.Value)
  | [] => .ok []
  | value :: rest => do return (← value.toWire) :: (← itemsToWire rest)
termination_by structural items => items

/-- Encodes the entries of a map, in their order. -/
def entriesToWire : List (String × Value ρ) → Except Error (List (String × Wire.Value))
  | [] => .ok []
  | (key, value) :: rest => do return (key, ← value.toWire) :: (← entriesToWire rest)
termination_by structural entries => entries

end

theorem itemsToWire_eq (items : List (Value ρ)) : itemsToWire items = items.mapM Value.toWire := by
  induction items with
  | nil => rfl
  | cons value rest ih => simp [itemsToWire, ih]

theorem entriesToWire_eq (entries : List (String × Value ρ)) :
    entriesToWire entries = Keyed.traverse Value.toWire entries := by
  induction entries with
  | nil => rfl
  | cons entry rest ih => simp [entriesToWire, Keyed.traverse, ih]

end TypedAttributes.Attribute
