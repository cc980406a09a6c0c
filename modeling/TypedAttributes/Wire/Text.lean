/-
# Wire values as text

A value is displayed as its declared type, or `untyped`, followed by its state in angle brackets.
-/
import TypedAttributes.Wire.Value

namespace TypedAttributes.Wire

mutual

/-- The text of a wire value, such as `List[String]<String<"a">, String<null>>`. -/
def Value.text : Value → String
  | .untyped => "untyped<null>"
  | .typed ty .null => ty.text ++ "<null>"
  | .typed ty .unknown => ty.text ++ "<unknown>"
  | .typed ty (.known payload) => ty.text ++ "<" ++ payload.text ++ ">"
termination_by structural value => value

/-- The text of a payload: its children are separated by commas, keys are quoted. -/
def Payload.text : Payload → String
  | .scalar content => content.text
  | .list items => Text.joined ", " (itemTexts items)
  | .set members => Text.joined ", " (itemTexts members)
  | .map entries => Text.joined ", " (entryTexts entries)
termination_by structural payload => payload

/-- The texts of the items of a list or the members of a set. -/
def itemTexts : List Value → List String
  | [] => []
  | value :: rest => value.text :: itemTexts rest
termination_by structural items => items

/-- The texts of the entries of a map: quoted keys and values. -/
def entryTexts : List (String × Value) → List String
  | [] => []
  | (key, value) :: rest => (Text.quoted key ++ ":" ++ value.text) :: entryTexts rest
termination_by structural entries => entries

end

theorem itemTexts_eq (items : List Value) : itemTexts items = items.map Value.text := by
  induction items with
  | nil => rfl
  | cons value rest ih => simp [itemTexts, ih]

theorem entryTexts_eq (entries : List (String × Value)) :
    entryTexts entries = entries.map fun entry => Text.quoted entry.1 ++ ":" ++ entry.2.text := by
  induction entries with
  | nil => rfl
  | cons entry rest ih => simp [entryTexts, ih]

end TypedAttributes.Wire
