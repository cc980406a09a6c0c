/-
# Validating wire values

A validator looks at a wire value, at a path and at a place of a walk, and reports what it finds.
Scalar types have no validator, collection types always have one, and a custom type has one if its
validation says so.

The validator of a list or a map hands every fully known child to the validator of the element type.
That of a set does so too, addresses members by their typed values, and reports every pair of equal
members.
-/
import TypedAttributes.Attribute.Convert
import TypedAttributes.Attribute.Diagnostic

namespace TypedAttributes.Attribute

variable {ρ : Type}

/-- Reports what is wrong with a wire value at a path and a place of a walk. -/
abbrev Validator (ρ : Type) := Wire.Value → Path ρ → Walk → Diagnostics ρ

namespace Diagnostic

/-- A finding that only an error in the program that made the value can cause. -/
def providerBug (path : Path ρ) (shape : Shape) (reason : String) : Diagnostic ρ :=
  .errorAt path (shape.name ++ " Type Validation Error")
    ("An unexpected error was encountered trying to validate an attribute value. " ++
      "This is always an error in the provider. Please report the following to the " ++
      "provider developer:\n\n" ++ reason)

/-- A value nested deeper than the limit. -/
def nestingTooDeep (path : Path ρ) (error : Error) : Diagnostic ρ :=
  .errorAt path "Value Nesting Too Deep" error.message

/-- A member of a set that occurs again later. -/
def duplicateElement (path : Path ρ) (again : Wire.Value) : Diagnostic ρ :=
  .errorAt path "Duplicate Set Element"
    ("This attribute contains duplicate values of: " ++ again.text)

/-- A member of a set that could not be converted. -/
def conversionFailure (path : Path ρ) (error : Error) : Diagnostic ρ :=
  match error with
  | .depthExceeded _ => nestingTooDeep path error
  | _ => providerBug path .set error.message

end Diagnostic

namespace Validator

/-- Looks into a wire value as a collection of a shape.  A value without a type, a null and an
unknown value are passed over; a value that declares another kind, and one whose payload is of
another kind than declared, are reported; otherwise the payload as decoded is handed on. -/
def inspect {α : Type} (shape : Shape) (decode : Wire.Value → Except Wire.Error α)
    (input : Wire.Value) (path : Path ρ) (content : α → Diagnostics ρ) : Diagnostics ρ :=
  match input with
  | .untyped => []
  | .typed ty state =>
    if ty.kind = .collection shape then
      match state with
      | .null => []
      | .unknown => []
      | .known _ =>
        match decode input with
        | .ok found => content found
        | .error error => [.providerBug path shape error.message]
    else [.providerBug path shape ("expected " ++ shape.name ++ " value, received " ++ input.text)]

/-- Enters a collection at a path, or reports that it is nested too deep. -/
def enter (path : Path ρ) (walk : Walk) (inside : Walk → Diagnostics ρ) : Diagnostics ρ :=
  match walk.descend with
  | .ok walk => inside walk
  | .error error => [.nestingTooDeep path error]

/-- The findings about the fully known items of a list, from the given position on. -/
def items (element : Validator ρ) (path : Path ρ) (walk : Walk) :
    Nat → List Wire.Value → Diagnostics ρ
  | _, [] => []
  | position, item :: rest =>
    (if item.isFullyKnown then element item (path.extend (.index position)) walk else []) ++
      items element path walk (position + 1) rest

/-- The findings about the fully known values of a map. -/
def values (element : Validator ρ) (path : Path ρ) (walk : Walk)
    (entries : List (String × Wire.Value)) : Diagnostics ρ :=
  entries.flatMap fun entry =>
    if entry.2.isFullyKnown then element entry.2 (path.extend (.key entry.1)) walk else []

/-- One finding for each fully known later member that is equal to a member with this address. -/
def repeats (address : Path ρ) (value : Wire.Value) (later : List Wire.Value) : Diagnostics ρ :=
  (later.filter fun other => other.isFullyKnown && other.equal value).map
    (.duplicateElement address)

/-- The findings about one fully known member of a set, given the members after it.  A member that
cannot be converted is reported and takes part in the search for duplicates, addressed at the set
itself. -/
def member (convert : Wire.Value → Walk → Except Error (Value ρ)) (element : Option (Validator ρ))
    (path : Path ρ) (walk : Walk) (value : Wire.Value) (later : List Wire.Value) : Diagnostics ρ :=
  match convert value walk with
  | .error error => .conversionFailure path error :: repeats path value later
  | .ok converted =>
    let address := path.extend (.member converted)
    match element with
    | some validator => validator value address walk ++ repeats address value later
    | none => repeats address value later

/-- The findings about the fully known members of a set. -/
def members (convert : Wire.Value → Walk → Except Error (Value ρ)) (element : Option (Validator ρ))
    (path : Path ρ) (walk : Walk) : List Wire.Value → Diagnostics ρ
  | [] => []
  | value :: later =>
    (if value.isFullyKnown then member convert element path walk value later else []) ++
      members convert element path walk later

/-- The validator of lists, given that of their element type. -/
def list (element : Option (Validator ρ)) : Validator ρ := fun input path walk =>
  inspect .list Wire.Value.asList input path fun found =>
    match element with
    | some validator => enter path walk fun walk => items validator path walk 0 found
    | none => []

/-- The validator of maps, given that of their element type. -/
def map (element : Option (Validator ρ)) : Validator ρ := fun input path walk =>
  inspect .map Wire.Value.asMap input path fun found =>
    match element with
    | some validator => enter path walk fun walk => values validator path walk found
    | none => []

/-- The validator of sets, given the conversion to their element type and its validator. -/
def set (convert : Wire.Value → Walk → Except Error (Value ρ)) (element : Option (Validator ρ)) :
    Validator ρ := fun input path walk =>
  inspect .set Wire.Value.asSet input path fun found =>
    enter path walk fun walk => members convert element path walk found

/-- The validator of sets whose type lacks its element type. -/
def bareSet : Validator ρ := fun input path _ =>
  inspect .set Wire.Value.asSet input path fun _ =>
    [.providerBug path .set (Error.missingElementType .set).message]

end Validator

/-- The validator of a type, if it has one; `meaning` says what the rules of custom types report. -/
def Ty.validator? (meaning : ρ → Validator ρ) : Ty ρ → Option (Validator ρ)
  | .scalar _ => none
  | .collection .list element => some (.list (element.validator? meaning))
  | .collection .map element => some (.map (element.validator? meaning))
  | .collection .set element => some (.set element.convert (element.validator? meaning))
  | .bare .list => some (.list none)
  | .bare .map => some (.map none)
  | .bare .set => some .bareSet
  | .custom _ _ .none => none
  | .custom _ base .ofBase => base.validator? meaning
  | .custom _ _ (.rule rule) => some (meaning rule)

/-- The findings about a wire value at a path, or nothing if the type has no validator. -/
def Ty.validate? (meaning : ρ → Validator ρ) (ty : Ty ρ) (input : Wire.Value) (path : Path ρ)
    (limits : Limits := {}) : Option (Diagnostics ρ) :=
  (ty.validator? meaning).map fun validator => validator input path (.start limits)

end TypedAttributes.Attribute
