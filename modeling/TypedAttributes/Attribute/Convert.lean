/-
# Converting wire values

A wire value is converted to a typed value of a given attribute type.  A value without a type
becomes null; any other value has to declare exactly the wire type of the attribute type.  A null or
unknown value is taken as such, without looking further; to take the content of a known collection
the walk enters it.
-/
import TypedAttributes.Attribute.Value
import TypedAttributes.Attribute.Walk
import TypedAttributes.Wire.Decode

namespace TypedAttributes.Attribute

variable {ρ : Type}

/-- The state of a wire value, if it may be used where a wire type is expected.  The target is the
receiving type as an error shows it. -/
def determine (expected : Wire.Ty) (target : String) :
    Wire.Value → Except Error (State Wire.Payload)
  | .untyped => .ok .null
  | .typed ty state =>
    if ty = expected then .ok state
    else .error (.typeMismatch (Wire.Value.typed ty state).text target expected)

namespace Ty

/-- A collection type as a mismatch error shows it. -/
def mismatchTarget (shape : Shape) (element : Ty ρ) : String :=
  shape.name ++ " with ElementType " ++ element.text

/-- Converts a wire value at a place of a walk.  The first failure in order is reported. -/
def convert : Ty ρ → Wire.Value → Walk → Except Error (Value ρ)
  | .scalar kind, input, _ => do
    match ← determine (.scalar kind) (kind.name ++ "Type") input with
    | .null => return .scalar kind .null
    | .unknown => return .scalar kind .unknown
    | .known _ => return .scalar kind (.known (← ofWire (input.asScalar kind)))
  | .collection shape element, input, walk => do
    let expected ← (Ty.collection shape element).wireTy
    match ← determine expected (mismatchTarget shape element) input with
    | .null => return .nullCollection shape (some element)
    | .unknown => return .unknownCollection shape (some element)
    | .known _ =>
      let walk ← walk.descend
      match shape with
      | .list =>
        let items ← ofWire input.asList
        return .list (some element) (.known (← items.mapM fun item => convert element item walk))
      | .map =>
        let entries ← ofWire input.asMap
        return .map (some element)
          (.known (← Keyed.traverse (fun value => convert element value walk) entries))
      | .set =>
        let members ← ofWire input.asSet
        return .set (some element)
          (.known (← members.mapM fun member => convert element member walk))
  | .bare shape, _, _ => .error (.missingElementType shape)
  | .custom name base validation, input, walk => do
    return .custom name base validation (← convert base input walk)

/-- Converts a wire value under limits. -/
def ofWireValue (ty : Ty ρ) (input : Wire.Value) (limits : Limits := {}) : Except Error (Value ρ) :=
  ty.convert input (.start limits)

end Ty

end TypedAttributes.Attribute
