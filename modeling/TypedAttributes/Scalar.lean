/-
# Scalars
-/
import TypedAttributes.Double.Text
import TypedAttributes.Text.Quoted

namespace TypedAttributes

/-- The kinds of scalars. -/
inductive Scalar.Kind where
  | string
  | number
  | bool
deriving DecidableEq

/-- A string, a number or a truth value. -/
inductive Scalar where
  | string (text : String)
  | number (value : Double)
  | bool (value : Bool)
deriving DecidableEq

namespace Scalar

namespace Kind

/-- The name of a kind in displayed text. -/
def name : Kind → String
  | .string => "String"
  | .number => "Number"
  | .bool => "Bool"

/-- The type of the content of scalars of a kind. -/
abbrev Content : Kind → Type
  | .string => String
  | .number => Double
  | .bool => Bool

/-- The scalar of a kind with the given content. -/
def wrap : (kind : Kind) → kind.Content → Scalar
  | .string, text => .string text
  | .number, value => .number value
  | .bool, value => .bool value

/-- The content of a scalar, if it is of the given kind. -/
def unwrap? : (kind : Kind) → Scalar → Option kind.Content
  | .string, .string text => some text
  | .number, .number value => some value
  | .bool, .bool value => some value
  | _, _ => none

theorem unwrap?_wrap (kind : Kind) (content : kind.Content) :
    kind.unwrap? (kind.wrap content) = some content := by
  cases kind <;> rfl

end Kind

/-- The kind of a scalar. -/
def kind : Scalar → Kind
  | .string _ => .string
  | .number _ => .number
  | .bool _ => .bool

/-- Equality of scalars; numbers are compared as doubles. -/
def equal : Scalar → Scalar → Bool
  | .string a, .string b => a == b
  | .number a, .number b => a.equal b
  | .bool a, .bool b => a == b
  | _, _ => false

/-- The text of a scalar; a string is quoted. -/
def text : Scalar → String
  | .string s => Text.quoted s
  | .number n => n.text
  | .bool true => "true"
  | .bool false => "false"

theorem unwrap?_eq_some_iff (kind : Kind) (scalar : Scalar) (content : kind.Content) :
    kind.unwrap? scalar = some content ↔ scalar = kind.wrap content := by
  cases kind <;> cases scalar <;> simp [Kind.unwrap?, Kind.wrap]

end Scalar

end TypedAttributes
