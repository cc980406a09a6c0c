/-
# Typed values as text
-/
import TypedAttributes.Attribute.Value

namespace TypedAttributes.Attribute

variable {ρ : Type}

mutual

/-- The text of a typed value: `"a"`, `[1, 2]`, `<null>`.  Custom types do not show. -/
def Value.text : Value ρ → String
  | .scalar kind state => state.text fun content => (kind.wrap content).text
  | .list _ .null => "<null>"
  | .list _ .unknown => "<unknown>"
  | .list _ (.known items) => "[" ++ Text.joined ", " (itemTexts items) ++ "]"
  | .map _ .null => "<null>"
  | .map _ .unknown => "<unknown>"
  | .map _ (.known entries) => "\x7b" ++ Text.joined ", " (entryTexts entries) ++ "\x7d"
  | .set _ .null => "<null>"
  | .set _ .unknown => "<unknown>"
  | .set _ (.known members) => "[" ++ Text.joined ", " (itemTexts members) ++ "]"
  | .custom _ _ _ inner => inner.text
termination_by structural value => value

/-- The texts of the items of a list or the members of a set. -/
def itemTexts : List (Value ρ) → List String
  | [] => []
  | value :: rest => value.text :: itemTexts rest
termination_by structural items => items

/-- The texts of the entries of a map: quoted keys and values. -/
def entryTexts : List (String × Value ρ) → List String
  | [] => []
  | (key, value) :: rest => (Text.quoted key ++ ": " ++ value.text) :: entryTexts rest
termination_by structural entries => entries

end

end TypedAttributes.Attribute
