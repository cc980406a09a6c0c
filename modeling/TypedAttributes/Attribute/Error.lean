/-
# Errors about attribute types and values
-/
import TypedAttributes.Wire.Error

namespace TypedAttributes.Attribute

/-- Why a type or a value cannot be used as asked. -/
inductive Error where
  /-- A wire value of another type than the receiving type exchanges. -/
  | typeMismatch (value : String) (target : String) (expected : Wire.Ty)
  /-- A collection type without an element type. -/
  | missingElementType (shape : Shape)
  /-- A step, named by its kind, that does not lead into a type. -/
  | invalidPathStep (step : String) (ty : String)
  /-- An element whose type is not the declared element type. -/
  | elementTypeMismatch (shape : Shape) (position : String) (expected : String) (actual : String)
  /-- More nested collections than the limit allows. -/
  | depthExceeded (limit : Nat)
  /-- An error about a wire value. -/
  | wire (error : Wire.Error)
deriving DecidableEq

namespace Error

/-- The text of an error. -/
def message : Error → String
  | .typeMismatch value target expected =>
    "can't use " ++ value ++ " as value of " ++ target ++ ", can only use " ++
      expected.text ++ " values"
  | .missingElementType shape => shape.name ++ "Type has no element type"
  | .invalidPathStep step ty => "cannot apply step " ++ step ++ " to " ++ ty
  | .elementTypeMismatch shape position expected actual =>
    shape.name ++ " element " ++ position ++ " has type " ++ actual ++ ", expected " ++ expected
  | .depthExceeded limit => "value nesting exceeds the limit of " ++ toString limit ++ " levels"
  | .wire error => error.message

/-- Equality of errors: the same cause about the same things. -/
def equal : Error → Error → Bool
  | .wire a, .wire b => a.equal b
  | a, b => a == b

end Error

/-- A result about wire values as one about attributes. -/
def ofWire {α : Type} (result : Except Wire.Error α) : Except Error α := result.mapError .wire

end TypedAttributes.Attribute
