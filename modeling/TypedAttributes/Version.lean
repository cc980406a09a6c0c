/-
# The running library

Values are exchanged on the wire as trees in which a node may say its type; a program describes the
values that it wants by attribute types.  Everything that runs is reached from here, in layers:

* numbers: `Double` is a double by its bits, `Numeral` a number as written, and both are turned into
  one another by exact arithmetic;
* JSON: documents are read with the place of the first fault, written, and compared;
* the wire: `Wire.Ty` and `Wire.Value`, a payload compared with its type, values decoded from
  documents and encoded, steps taken into them;
* attributes: `Attribute.Ty` and `Attribute.Value`, conversion to and from the wire within a limit
  of nesting, known collections of checked elements, and validation, which reports diagnostics at
  paths;
* storage: types, kinds, severities and limits as documents.

What is proved of them is below `Proofs`, each module beside the layer that it is about.
-/
import TypedAttributes.Numeral
import TypedAttributes.Wire.Json
import TypedAttributes.Wire.Checked
import TypedAttributes.Wire.Step
import TypedAttributes.Attribute.Checked
import TypedAttributes.Attribute.Encode
import TypedAttributes.Attribute.Validate
import TypedAttributes.Stored

namespace TypedAttributes

/-- The version of the wire format and its library. -/
def version : String := "0.1.0"

end TypedAttributes
