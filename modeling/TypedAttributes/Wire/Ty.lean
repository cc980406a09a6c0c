/-
# Wire types

The type that a wire value declares: a scalar kind, or a collection of an element type.
-/
import TypedAttributes.Scalar

namespace TypedAttributes

/-- The three shapes of collections. -/
inductive Shape where
  /-- Children in order. -/
  | list
  /-- Children under text keys. -/
  | map
  /-- Children whose order means nothing. -/
  | set
deriving DecidableEq

/-- The name of a shape in displayed text. -/
def Shape.name : Shape → String
  | .list => "List"
  | .map => "Map"
  | .set => "Set"

namespace Wire

/-- The structural kind of a type or a payload, without element types. -/
inductive Kind where
  | scalar (kind : Scalar.Kind)
  | collection (shape : Shape)
deriving DecidableEq

/-- The name of a kind in displayed text. -/
def Kind.name : Kind → String
  | .scalar kind => kind.name
  | .collection shape => shape.name

/-- A wire type. -/
inductive Ty where
  | scalar (kind : Scalar.Kind)
  | collection (shape : Shape) (element : Ty)
deriving DecidableEq

namespace Ty

/-- The structural kind of a type. -/
def kind : Ty → Kind
  | .scalar kind => .scalar kind
  | .collection shape _ => .collection shape

/-- The element type of a collection type. -/
def element? : Ty → Option Ty
  | .scalar _ => none
  | .collection _ element => some element

/-- The kinds met from a type down its element types. -/
def kinds : Ty → List Kind
  | .scalar kind => [.scalar kind]
  | .collection shape element => .collection shape :: element.kinds

/-- The text of a type, such as `List[Map[Number]]`. -/
def text : Ty → String
  | .scalar kind => kind.name
  | .collection shape element => shape.name ++ "[" ++ element.text ++ "]"

end Ty

end Wire

end TypedAttributes
