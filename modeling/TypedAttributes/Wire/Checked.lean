/-
# Checked wire values

`Value.checked` builds a known value only if its payload fits its type: the payload has the kind of
the type, every child declares the element type, and the payloads of known children fit in turn.
-/
import TypedAttributes.Wire.Value
import TypedAttributes.Wire.Error

namespace TypedAttributes.Wire

/-- Compares a payload with a type.  The first fault in order is reported: the kind first, then
child by child the declared type before the payload. -/
def Payload.check : Ty → Payload → Except Error Unit
  | .scalar kind, payload =>
    if payload.kind = .scalar kind then .ok ()
    else .error (.payloadMismatch (.scalar kind) payload.kind)
  | .collection shape element, payload =>
    if payload.kind = .collection shape then
      payload.children.forM fun child =>
        if child.ty? = some element then
          match child.payload? with
          | some inner => check element inner
          | none => .ok ()
        else .error (.elementMismatch element child.ty?)
    else .error (.payloadMismatch (.collection shape element) payload.kind)

/-- A known value whose payload fits its type. -/
def Value.checked (ty : Ty) (payload : Payload) : Except Error Value := do
  payload.check ty
  return .known ty payload

end TypedAttributes.Wire
