/-
# Steps of wire addresses

An address leads from a value to a part of it, one step at a time.
-/
import TypedAttributes.Wire.Equality
import TypedAttributes.Wire.Text

namespace TypedAttributes.Wire

/-- One step of an address. -/
inductive Step where
  /-- To the attribute of a name. -/
  | name (label : String)
  /-- To the value of a map under a key. -/
  | key (label : String)
  /-- To a position of a list. -/
  | index (position : Int)
  /-- To the member of a set that is this value. -/
  | member (value : Value)

namespace Step

/-- The name of the kind of a step in displayed text. -/
def kindName : Step → String
  | .name _ => "AttributeName"
  | .key _ => "ElementKeyString"
  | .index _ => "ElementKeyInt"
  | .member _ => "ElementKeyValue"

/-- The text of a step, such as `ElementKeyInt(3)`. -/
def text (step : Step) : String :=
  let content :=
    match step with
    | .name label => Text.quoted label
    | .key label => Text.quoted label
    | .index position => toString position
    | .member value => value.text
  step.kindName ++ "(" ++ content ++ ")"

/-- Equality of steps; the values of member steps are compared as wire values. -/
def equal : Step → Step → Bool
  | .name a, .name b => a == b
  | .key a, .key b => a == b
  | .index a, .index b => a == b
  | .member a, .member b => a.equal b
  | _, _ => false

end Step

end TypedAttributes.Wire
