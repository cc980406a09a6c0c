/-
# Wire values as JSON documents

A document carries no types, so it is decoded as a value of a given type: `null` is the null value
of any type, and otherwise the kinds have to agree.  Every value that is decoded is null or known.
In the other direction types are dropped, and neither an unknown value nor a double that is not
finite can be encoded.
-/
import TypedAttributes.Wire.Value
import TypedAttributes.Wire.Error
import TypedAttributes.Json.Reading
import TypedAttributes.Json.Writer

namespace TypedAttributes.Wire

namespace Value

/-- The refusal of a document that is not of the kind of a type. -/
def notOfKind (ty : Ty) (json : Json) : Error := .notDecodable ty.kind json.text

/-- Decodes a document as a value of a type.  The first part that does not fit is reported. -/
def ofJson : Ty → Json → Except Error Value
  | ty, .null => .ok (.null ty)
  | .scalar .string, .string text => .ok (.known (.scalar .string) (.scalar (.string text)))
  | .scalar .number, .number value =>
    .ok (.known (.scalar .number) (.scalar (.number value.toDouble)))
  | .scalar .bool, .bool value => .ok (.known (.scalar .bool) (.scalar (.bool value)))
  | .collection .list element, .array items => do
    return .known (.collection .list element) (.list (← items.mapM (ofJson element)))
  | .collection .set element, .array items => do
    return .known (.collection .set element) (.set (← items.mapM (ofJson element)))
  | .collection .map element, .object entries => do
    return .known (.collection .map element) (.map (← Keyed.traverse (ofJson element) entries))
  | ty, json => .error (notOfKind ty json)

/-- Decodes the document that a text writes. -/
def ofJsonText (ty : Ty) (text : String) : Except Error Value :=
  match Json.parse text with
  | .ok json => ofJson ty json
  | .error error => .error (.malformedJson error)

end Value

/-- The document of a scalar. -/
def scalarToJson : Scalar → Except Error Json
  | .string text => .ok (.string text)
  | .number value =>
    match Json.Number.ofDouble? value with
    | some number => .ok (.number number)
    | none => .error (.invalidNumber value)
  | .bool value => .ok (.bool value)

mutual

/-- Encodes a value as a document.  The first obstacle in order is reported. -/
def Value.toJson : Value → Except Error Json
  | .untyped => .ok .null
  | .typed _ .null => .ok .null
  | .typed _ .unknown => .error .unknownNotEncodable
  | .typed _ (.known payload) => payload.toJson
termination_by structural value => value

/-- Encodes a payload as a document. -/
def Payload.toJson : Payload → Except Error Json
  | .scalar content => scalarToJson content
  | .list items => (itemsToJson items).map .array
  | .set members => (itemsToJson members).map .array
  | .map entries => (entriesToJson entries).map .object
termination_by structural payload => payload

/-- Encodes the items of a list or the members of a set. -/
def itemsToJson : List Value → Except Error (List Json)
  | [] => .ok []
  | value :: rest => do return (← value.toJson) :: (← itemsToJson rest)
termination_by structural items => items

/-- Encodes the entries of a map. -/
def entriesToJson : List (String × Value) → Except Error (List (String × Json))
  | [] => .ok []
  | (key, value) :: rest => do return (key, ← value.toJson) :: (← entriesToJson rest)
termination_by structural entries => entries

end

theorem itemsToJson_eq (items : List Value) : itemsToJson items = items.mapM Value.toJson := by
  induction items with
  | nil => rfl
  | cons value rest ih => simp [itemsToJson, ih]

theorem entriesToJson_eq (entries : List (String × Value)) :
    entriesToJson entries = Keyed.traverse Value.toJson entries := by
  induction entries with
  | nil => rfl
  | cons entry rest ih => simp [entriesToJson, Keyed.traverse, ih]

end TypedAttributes.Wire
