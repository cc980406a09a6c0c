/-
# JSON documents as written

A document in which objects still have their entries in the order of the text, repeated keys
included.
-/
import TypedAttributes.Json.Basic
import TypedAttributes.Numeral.Stepwise

namespace TypedAttributes.Json

/-- A document as written. -/
inductive Written where
  | null
  | bool (value : Bool)
  | number (value : Number)
  | string (text : String)
  | array (items : List Written)
  /-- Entries in the order of the text. -/
  | object (entries : List (String × Written))

namespace Written

mutual

/-- The document that is written; of entries with one key the last counts. -/
def toJson : Written → Json
  | .null => .null
  | .bool value => .bool value
  | .number value => .number value
  | .string text => .string text
  | .array items => .array (itemsToJson items)
  | .object entries => .object (Keyed.ofEntries (entriesToJson entries))
termination_by structural written => written

/-- The items of an array as documents. -/
def itemsToJson : List Written → List Json
  | [] => []
  | item :: rest => item.toJson :: itemsToJson rest
termination_by structural items => items

/-- The entries of an object as documents, in the order of the text. -/
def entriesToJson : List (String × Written) → List (String × Json)
  | [] => []
  | (key, value) :: rest => (key, value.toJson) :: entriesToJson rest
termination_by structural entries => entries

end

end Written

/-- The number that a numeral writes: an integer if neither fraction nor exponent is written and the
value fits a word, else the double that is read stepwise, if there is one.  Minus zero is a
double. -/
def Number.ofNumeral? (numeral : Numeral) : Option Number :=
  let value : Int := if numeral.negative then -numeral.digits else numeral.digits
  let double? := numeral.stepwise?.bind ofDouble?
  if numeral.isWhole ∧ ¬(numeral.negative ∧ numeral.digits = 0) then (ofInt? value).or double?
  else double?

end TypedAttributes.Json
