/-
# Writing JSON documents

Documents are written without blanks.  In strings only quotes, backslashes and characters below the
space are escaped.  Doubles are written with their shortest digits, a half going to the even one; a
whole double keeps `.0`, and an exponent is used from `10 ^ 16` on and below `10 ^ (-5)`.
-/
import TypedAttributes.Json.Basic
import TypedAttributes.Double.Text
import TypedAttributes.Text.Quoted

namespace TypedAttributes.Json

/-- How doubles are laid out in documents. -/
def doubleStyle : DoubleStyle where
  tie := .toEven
  pointZero := true
  positional exponent := -6 < exponent && exponent < 16

/-- The exact value is `2.98023223876953125e-8`, halfway between two shortest decimals. -/
example : doubleStyle.text false 0x3E60000000000000 = "2.9802322387695312e-8" := by decide +kernel

/-- The largest power of ten that is written positionally, and the next one. -/
example : doubleStyle.text false 0x430C6BF526340000 = "1000000000000000.0" ∧
    doubleStyle.text false 0x4341C37937E08000 = "1e+16" := by decide +kernel

/-- The text of a number. -/
def Number.text : Number → String
  | .integer value _ => toString value
  | .double (.finite negative rank) _ => doubleStyle.text negative rank

/-- The written form of one character in a string. -/
def escape (c : Char) : List Char :=
  if c = '"' then ['\\', '"']
  else if c = '\\' then ['\\', '\\']
  else if c = '\x08' then ['\\', 'b']
  else if c = '\x0c' then ['\\', 'f']
  else if c = '\n' then ['\\', 'n']
  else if c = '\r' then ['\\', 'r']
  else if c = '\t' then ['\\', 't']
  else if c.toNat < 0x20 then
    ['\\', 'u', '0', '0', Nat.digitChar (c.toNat / 16), Nat.digitChar (c.toNat % 16)]
  else [c]

/-- The written form of a string. -/
def stringText (text : String) : String :=
  String.ofList ('"' :: (text.toList.flatMap escape ++ ['"']))

mutual

/-- The text of a document. -/
def text : Json → String
  | .null => "null"
  | .bool true => "true"
  | .bool false => "false"
  | .number value => value.text
  | .string s => stringText s
  | .array items => "[" ++ Text.joined "," (itemTexts items) ++ "]"
  | .object entries => "\x7b" ++ Text.joined "," (entryTexts entries) ++ "\x7d"
termination_by structural json => json

/-- The texts of the items of an array. -/
def itemTexts : List Json → List String
  | [] => []
  | item :: rest => item.text :: itemTexts rest
termination_by structural items => items

/-- The texts of the entries of an object. -/
def entryTexts : List (String × Json) → List String
  | [] => []
  | (key, value) :: rest => (stringText key ++ ":" ++ value.text) :: entryTexts rest
termination_by structural entries => entries

end

end TypedAttributes.Json
