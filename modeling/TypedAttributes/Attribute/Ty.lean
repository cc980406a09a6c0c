/-
# Attribute types

An attribute type is a scalar, a collection of an element type, or a custom type: a name for a base
type, which may come with a validation of its own.  What such validations do is not part of the
type; a type names them by elements of a type `ρ` of rules, whose meaning is given where values are
validated.

A collection type may lack its element type.  Such a type equals nothing, itself included, and has
no wire type.
-/
import TypedAttributes.Attribute.Error
import TypedAttributes.Wire.Step

namespace TypedAttributes.Attribute

/-- How a custom type validates wire values. -/
inductive Validation (ρ : Type) where
  /-- Not at all. -/
  | none
  /-- As its base type does. -/
  | ofBase
  /-- By a rule of its own. -/
  | rule (rule : ρ)

/-- An attribute type. -/
inductive Ty (ρ : Type) where
  | scalar (kind : Scalar.Kind)
  | collection (shape : Shape) (element : Ty ρ)
  /-- A collection type that lacks its element type. -/
  | bare (shape : Shape)
  /-- A named type over a base type. -/
  | custom (name : String) (base : Ty ρ) (validation : Validation ρ)

namespace Ty

variable {ρ : Type}

/-- The collection type with an element type or without. -/
def ofElement (shape : Shape) : Option (Ty ρ) → Ty ρ
  | some element => .collection shape element
  | none => .bare shape

/-- The element type of a collection type; custom types do not show theirs. -/
def element? : Ty ρ → Option (Ty ρ)
  | .collection _ element => some element
  | _ => none

/-- The shape of a collection type; custom types do not show theirs. -/
def shape? : Ty ρ → Option Shape
  | .collection shape _ => some shape
  | .bare shape => some shape
  | _ => none

/-- The collection type of the same shape with another element type; other types have none. -/
def withElement? (ty element : Ty ρ) : Option (Ty ρ) :=
  ty.shape?.map fun shape => .collection shape element

/-- The text of a type, such as `ListType[StringType]`. -/
def text : Ty ρ → String
  | .scalar kind => kind.name ++ "Type"
  | .collection shape element => shape.name ++ "Type[" ++ element.text ++ "]"
  | .bare shape => shape.name ++ "Type[missing]"
  | .custom name _ _ => name

/-- The wire type in which values of a type are exchanged; a custom type has that of its base. -/
def wireTy : Ty ρ → Except Error Wire.Ty
  | .scalar kind => .ok (.scalar kind)
  | .collection shape element => do return .collection shape (← element.wireTy)
  | .bare shape => .error (.missingElementType shape)
  | .custom _ base _ => base.wireTy

/-- Equality of types.  Custom types are equal when their names and their bases are, whatever their
validations. -/
def equal : Ty ρ → Ty ρ → Bool
  | .scalar a, .scalar b => a == b
  | .collection s a, .collection t b => s == t && a.equal b
  | .custom m a _, .custom n b _ => m == n && a.equal b
  | _, _ => false

/-- Equality of element types: both are there and equal. -/
def elementsEqual : Option (Ty ρ) → Option (Ty ρ) → Bool
  | some a, some b => a.equal b
  | _, _ => false

/-- Whether a step is of the kind that leads into collections of a shape: an index into a list, a
key into a map, a member into a set. -/
def leadsInto : Wire.Step → Shape → Bool
  | .index _, .list => true
  | .key _, .map => true
  | .member _, .set => true
  | _, _ => false

/-- The type to which a step leads.  The step is refused before a missing element type is; whether
there is an element at the step is not asked. -/
def applyStep (step : Wire.Step) : Ty ρ → Except Error (Ty ρ)
  | .scalar kind => .error (.invalidPathStep step.kindName (Ty.text (.scalar kind : Ty ρ)))
  | .collection shape element =>
    if leadsInto step shape then .ok element
    else .error (.invalidPathStep step.kindName (Ty.collection shape element).text)
  | .bare shape =>
    if leadsInto step shape then .error (.missingElementType shape)
    else .error (.invalidPathStep step.kindName (Ty.text (.bare shape : Ty ρ)))
  | .custom _ base _ => base.applyStep step

end Ty

end TypedAttributes.Attribute
