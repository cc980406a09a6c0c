/-
# Checked collections

A known collection is built from an element type and elements whose types are equal to it.  The
first element of another type is reported by its position: its number in a list or set, its quoted
key in a map.
-/
import TypedAttributes.Attribute.Value
import TypedAttributes.Text.Quoted

namespace TypedAttributes.Attribute.Value

variable {ρ : Type}

/-- Compares the type of one element with the element type. -/
def checkElement (shape : Shape) (element : Ty ρ) (position : String) (value : Value ρ) :
    Except Error Unit :=
  if value.ty.equal element then .ok ()
  else .error (.elementTypeMismatch shape position element.text value.ty.text)

/-- Compares the types of numbered elements with the element type, counting from the given
number. -/
def checkElements (shape : Shape) (element : Ty ρ) : Nat → List (Value ρ) → Except Error Unit
  | _, [] => .ok ()
  | position, value :: rest => do
    checkElement shape element (toString position) value
    checkElements shape element (position + 1) rest

/-- The known list of the given items. -/
def newList (element : Ty ρ) (items : List (Value ρ)) : Except Error (Value ρ) := do
  checkElements .list element 0 items
  return .list (some element) (.known items)

/-- The known set of the given members; members that occur twice are kept twice. -/
def newSet (element : Ty ρ) (members : List (Value ρ)) : Except Error (Value ρ) := do
  checkElements .set element 0 members
  return .set (some element) (.known members)

/-- The entries of a map to which the given entries are added one by one.  A value is checked even
if a later entry replaces it. -/
def addEntries (element : Ty ρ) :
    List (String × Value ρ) → List (String × Value ρ) → Except Error (List (String × Value ρ))
  | built, [] => .ok built
  | built, (key, value) :: rest => do
    checkElement .map element (Text.quoted key) value
    addEntries element (Keyed.put key value built) rest

/-- The known map of the given entries.  A later entry with a key replaces the value of an earlier
one and keeps its place. -/
def newMap (element : Ty ρ) (entries : List (String × Value ρ)) : Except Error (Value ρ) := do
  return .map (some element) (.known (← addEntries element [] entries))

end TypedAttributes.Attribute.Value
