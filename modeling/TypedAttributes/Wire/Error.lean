/-
# Errors about wire values
-/
import TypedAttributes.Wire.Ty
import TypedAttributes.Json.Fault

namespace TypedAttributes.Wire

/-- Why a wire value cannot be built, decoded or encoded. -/
inductive Error where
  /-- The value or document with this text is not of the wanted kind. -/
  | notDecodable (wanted : Kind) (value : String)
  /-- A payload of another kind than its declared type. -/
  | payloadMismatch (declared : Ty) (actual : Kind)
  /-- A child that does not declare the element type of its parent. -/
  | elementMismatch (element : Ty) (declared : Option Ty)
  /-- An unknown value has no JSON form. -/
  | unknownNotEncodable
  /-- A double that is not finite has no JSON form. -/
  | invalidNumber (value : Double)
  /-- A text that is no JSON document. -/
  | malformedJson (error : Json.SyntaxError)
deriving DecidableEq

namespace Error

/-- The text of an error. -/
def message : Error → String
  | .notDecodable wanted value => "can't decode " ++ value ++ " as " ++ wanted.name
  | .payloadMismatch declared actual =>
    "payload of kind " ++ actual.name ++ " does not match wire type " ++ declared.text
  | .elementMismatch element declared =>
    "element of type " ++ (declared.map Ty.text).getD "untyped" ++
      " does not match element type " ++ element.text
  | .unknownNotEncodable => "unknown values cannot be encoded as JSON"
  | .invalidNumber value => "number " ++ value.text ++ " cannot be represented in JSON"
  | .malformedJson error => "JSON error: " ++ error.message

/-- Equality of errors: the same cause about the same things, numbers compared as doubles. -/
def equal : Error → Error → Bool
  | .invalidNumber a, .invalidNumber b => a.equal b
  | a, b => a == b

end Error

end TypedAttributes.Wire
