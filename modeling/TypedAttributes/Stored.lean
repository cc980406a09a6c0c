/-
# Stored types and settings

Wire types, kinds, severities and limits are stored as JSON documents.  A name without content is a
string, or an object in which it is the key of `null`; a collection type is an object in which the
shape is the key of the element type; limits are an object with the field `max_depth`, or an array
of that one number.

Fields of limits that have another name are skipped, so what they hold need only be well written.
-/
import TypedAttributes.Json.Reading
import TypedAttributes.Json.Writer
import TypedAttributes.Attribute.Walk
import TypedAttributes.Attribute.Diagnostic

namespace TypedAttributes.Stored

open Json (Written Frame)

/-- The first of the listed values that has the given name. -/
def named? {α : Type} (name : α → String) (choices : List α) (wanted : String) : Option α :=
  choices.find? fun choice => name choice = wanted

/-- The kinds of scalars. -/
def scalarKinds : List Scalar.Kind := [.string, .number, .bool]

/-- The shapes of collections. -/
def shapes : List Shape := [.list, .map, .set]

/-- Reads a document in which nothing is skipped. -/
def written? (text : String) : Option Written := (Written.parse (fun _ => false) text).toOption

/-- Reads a name without content. -/
def nameOf? : Written → Option String
  | .string name => some name
  | .object [(name, .null)] => some name
  | _ => none

/-- Reads a wire type. -/
def tyOf? : Written → Option Wire.Ty
  | .object [(name, content)] =>
    match named? Shape.name shapes name with
    | some shape => (tyOf? content).map (.collection shape)
    | none => do
      return .scalar (← named? Scalar.Kind.name scalarKinds (← nameOf? (.object [(name, content)])))
  | written => do return .scalar (← named? Scalar.Kind.name scalarKinds (← nameOf? written))

/-- Reads a text as a stored wire type. -/
def ty? (text : String) : Option Wire.Ty := do tyOf? (← written? text)

/-- The document of a wire type. -/
def tyDocument : Wire.Ty → Json
  | .scalar kind => .string kind.name
  | .collection shape element => .object [(shape.name, tyDocument element)]

/-- Reads a text as a stored wire kind. -/
def kind? (text : String) : Option Wire.Kind := do
  named? Wire.Kind.name (scalarKinds.map .scalar ++ shapes.map .collection)
    (← nameOf? (← written? text))

/-- The document of a wire kind. -/
def kindDocument (kind : Wire.Kind) : Json := .string kind.name

/-- The stored name of a severity. -/
def severityName : Attribute.Severity → String
  | .error => "Error"
  | .warning => "Warning"

/-- Reads a text as a stored severity. -/
def severity? (text : String) : Option Attribute.Severity := do
  named? severityName [.error, .warning] (← nameOf? (← written? text))

/-- The document of a severity. -/
def severityDocument (severity : Attribute.Severity) : Json := .string (severityName severity)

/-- The field that holds the limit of nesting. -/
def maxDepthField : String := "max_depth"

/-- Whether a part of stored limits is skipped: it is inside of a field of another name. -/
def isOtherField (frames : List Frame) : Bool :=
  match frames.getLast? with
  | some (.entry _ name) => name ≠ maxDepthField
  | _ => false

/-- Reads a number of levels: an integer of at most 64 bits, not negative, without fraction or
exponent. -/
def levelsOf? : Written → Option Nat
  | .number (.integer value _) => if 0 ≤ value then some value.toNat else none
  | _ => none

/-- Reads limits. -/
def limitsOf? : Written → Option Attribute.Limits
  | .object fields =>
    match fields.filter fun field => field.1 = maxDepthField with
    | [] => some {}
    | [(_, levels)] => (levelsOf? levels).map fun maxDepth => ⟨maxDepth⟩
    | _ => none
  | .array [] => some {}
  | .array [levels] => (levelsOf? levels).map fun maxDepth => ⟨maxDepth⟩
  | _ => none

/-- Reads a text as stored limits. -/
def limits? (text : String) : Option Attribute.Limits := do
  limitsOf? (← (Written.parse isOtherField text).toOption)

/-- The text of stored limits. -/
def limitsText (limits : Attribute.Limits) : String :=
  "\x7b" ++ Json.stringText maxDepthField ++ ":" ++ toString limits.maxDepth ++ "\x7d"

end TypedAttributes.Stored
