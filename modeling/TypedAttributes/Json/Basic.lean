/-
# JSON documents

A document is a tree.  Numbers are kept as they can be written back: an integer in the range of
64-bit words stays an integer, every other number is a finite double.  The entries of an object are
kept in ascending order of their keys.
-/
import TypedAttributes.Double.Rounding
import TypedAttributes.Keyed

namespace TypedAttributes

/-- A number of a document. -/
inductive Json.Number where
  /-- An integer that fits a signed or an unsigned word of 64 bits. -/
  | integer (value : Int) (fits : -0x8000000000000000 ≤ value ∧ value < 0x10000000000000000)
  /-- A finite double. -/
  | double (value : Double) (finite : value.isFinite = true)
deriving DecidableEq

/-- A JSON document. -/
inductive Json where
  | null
  | bool (value : Bool)
  | number (value : Json.Number)
  | string (text : String)
  | array (items : List Json)
  /-- Entries in ascending order of their keys. -/
  | object (entries : List (String × Json))

namespace Json

namespace Number

/-- The double nearest to a number. -/
def toDouble : Number → Double
  | .integer value _ => .ofInt value
  | .double value _ => value

/-- A double as a number of a document, if it is finite. -/
def ofDouble? (value : Double) : Option Number :=
  if h : value.isFinite = true then some (.double value h) else none

/-- An integer as a number of a document, if it fits a word. -/
def ofInt? (value : Int) : Option Number :=
  if h : -0x8000000000000000 ≤ value ∧ value < 0x10000000000000000 then some (.integer value h)
  else none

end Number

/-- Whether the document is `null`. -/
def isNull : Json → Bool
  | .null => true
  | _ => false

end Json

end TypedAttributes
