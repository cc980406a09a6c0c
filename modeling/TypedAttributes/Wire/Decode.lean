/-
# Decoding a known wire value

Each decoder looks at the payload alone, not at the declared type, and refuses a value that is not
known or whose payload is of another kind.
-/
import TypedAttributes.Wire.Text
import TypedAttributes.Wire.Error

namespace TypedAttributes.Wire.Value

/-- The refusal of a value that was to be decoded as a kind. -/
def notDecodable (value : Value) (wanted : Kind) : Error := .notDecodable wanted value.text

/-- The content of a known scalar of a kind. -/
def asScalar (kind : Scalar.Kind) (value : Value) : Except Error kind.Content :=
  match value.payload? with
  | some (.scalar content) =>
    match kind.unwrap? content with
    | some content => .ok content
    | none => .error (value.notDecodable (.scalar kind))
  | _ => .error (value.notDecodable (.scalar kind))

/-- The items of a known list. -/
def asList (value : Value) : Except Error (List Value) :=
  match value.payload? with
  | some (.list items) => .ok items
  | _ => .error (value.notDecodable (.collection .list))

/-- The members of a known set. -/
def asSet (value : Value) : Except Error (List Value) :=
  match value.payload? with
  | some (.set members) => .ok members
  | _ => .error (value.notDecodable (.collection .set))

/-- The entries of a known map, by ascending key. -/
def asMap (value : Value) : Except Error (List (String × Value)) :=
  match value.payload? with
  | some (.map entries) => .ok entries
  | _ => .error (value.notDecodable (.collection .map))

end TypedAttributes.Wire.Value
