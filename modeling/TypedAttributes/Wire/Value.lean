/-
# Wire values

A node of the tree in which configuration data is exchanged.  A node either has no type at all or
declares a wire type and is null, not yet known, or known with a payload.  Nothing ties the payload
to the declared type; `Wire.Value.checked` builds values where they agree.

The entries of a map payload are kept in ascending order of their keys.  `Payload.ofEntries` puts
them in that order, and `Value.KeysAscend` says that every map in a tree is in it.
-/
import TypedAttributes.Wire.Ty
import TypedAttributes.State
import TypedAttributes.Keyed

namespace TypedAttributes.Wire

mutual

/-- A wire value. -/
inductive Value where
  /-- A node without a type; it counts as null. -/
  | untyped
  /-- A node that declares a type. -/
  | typed (ty : Ty) (state : State Payload)

/-- The content of a known wire value. -/
inductive Payload where
  | scalar (content : Scalar)
  /-- Children in order. -/
  | list (items : List Value)
  /-- Children whose order means nothing; they are kept in the order given. -/
  | set (members : List Value)
  /-- Children under keys, in ascending order of the keys. -/
  | map (entries : List (String × Value))

end

namespace Payload

/-- The payload of a map with the given entries, of which the last with a key counts. -/
def ofEntries (entries : List (String × Value)) : Payload := .map (Keyed.ofEntries entries)

/-- The structural kind of a payload. -/
def kind : Payload → Kind
  | .scalar content => .scalar content.kind
  | .list _ => .collection .list
  | .set _ => .collection .set
  | .map _ => .collection .map

/-- The children of a payload: items and members in order, the values of a map by ascending key. -/
def children : Payload → List Value
  | .scalar _ => []
  | .list items => items
  | .set members => members
  | .map entries => entries.map Prod.snd

end Payload

namespace Value

/-- A known value of a type; the payload is not compared with the type. -/
def known (ty : Ty) (payload : Payload) : Value := .typed ty (.known payload)

/-- The null value of a type. -/
def null (ty : Ty) : Value := .typed ty .null

/-- The value of a type that is not yet known. -/
def unknown (ty : Ty) : Value := .typed ty .unknown

/-- The known value of a scalar. -/
def scalar (content : Scalar) : Value := known (.scalar content.kind) (.scalar content)

/-- A known list with the given element type. -/
def list (element : Ty) (items : List Value) : Value :=
  known (.collection .list element) (.list items)

/-- A known set with the given element type. -/
def set (element : Ty) (members : List Value) : Value :=
  known (.collection .set element) (.set members)

/-- A known map with the given element type; of entries with one key the last counts. -/
def map (element : Ty) (entries : List (String × Value)) : Value :=
  known (.collection .map element) (.ofEntries entries)

/-- The declared type. -/
def ty? : Value → Option Ty
  | .untyped => none
  | .typed ty _ => some ty

/-- The state of a value; one without a type is null. -/
def state : Value → State Payload
  | .untyped => .null
  | .typed _ state => state

/-- The payload of a known value. -/
def payload? (value : Value) : Option Payload := value.state.known?

/-- Whether the value itself is determined; its children need not be. -/
def isKnown (value : Value) : Bool := !value.state.isUnknown

/-- Whether the value is null. -/
def isNull (value : Value) : Bool := value.state.isNull

/-- The children of a known value; a value that is not known has none. -/
def children : Value → List Value
  | .typed _ (.known payload) => payload.children
  | _ => []

mutual

/-- Whether a test holds of a value and of everything in it. -/
def all (test : Value → Bool) : Value → Bool
  | .untyped => test .untyped
  | .typed ty .null => test (.typed ty .null)
  | .typed ty .unknown => test (.typed ty .unknown)
  | .typed ty (.known payload) => test (.typed ty (.known payload)) && allOfPayload test payload
termination_by structural value => value

/-- Whether a test holds of everything in a payload. -/
def allOfPayload (test : Value → Bool) : Payload → Bool
  | .scalar _ => true
  | .list items => allOfItems test items
  | .set members => allOfItems test members
  | .map entries => allOfEntries test entries
termination_by structural payload => payload

/-- Whether a test holds of some values and of everything in them. -/
def allOfItems (test : Value → Bool) : List Value → Bool
  | [] => true
  | value :: rest => value.all test && allOfItems test rest
termination_by structural values => values

/-- Whether a test holds of the values of some entries and of everything in them. -/
def allOfEntries (test : Value → Bool) : List (String × Value) → Bool
  | [] => true
  | (_, value) :: rest => value.all test && allOfEntries test rest
termination_by structural entries => entries

end

theorem allOfItems_eq (test : Value → Bool) (values : List Value) :
    allOfItems test values = values.all (all test) := by
  induction values with
  | nil => rfl
  | cons value rest ih => simp [allOfItems, ih]

theorem allOfEntries_eq (test : Value → Bool) (entries : List (String × Value)) :
    allOfEntries test entries = (entries.map Prod.snd).all (all test) := by
  induction entries with
  | nil => rfl
  | cons entry rest ih =>
    obtain ⟨key, value⟩ := entry
    simp [allOfEntries, ih]

/-- A test holds of a value and of everything in it when it holds of the value and of each child and
everything in that. -/
theorem all_eq (test : Value → Bool) (value : Value) :
    value.all test = (test value && value.children.all (all test)) := by
  rcases value with _ | ⟨ty, _ | _ | payload⟩
  · simp [all, children]
  · simp [all, children]
  · simp [all, children]
  · cases payload <;>
      simp [all, children, allOfPayload, allOfItems_eq, allOfEntries_eq, Payload.children]

/-- Whether the value and everything in it is determined. -/
def isFullyKnown (value : Value) : Bool := value.all isKnown

/-- Whether the entries of every map in the value are in ascending order of their keys. -/
def keysAscend (value : Value) : Bool :=
  value.all fun node =>
    match node.payload? with
    | some (.map entries) => decide (Keyed.Ascending entries)
    | _ => true

/-- Induction on values: what holds of a value as soon as it holds of its children holds of all
values. -/
theorem induction {motive : Value → Prop}
    (step : ∀ value, (∀ child ∈ value.children, motive child) → motive value) (value : Value) :
    motive value := by
  refine @Value.rec motive (fun payload => ∀ child ∈ payload.children, motive child)
    (fun state => ∀ ty, motive (.typed ty state)) (fun items => ∀ child ∈ items, motive child)
    (fun entries => ∀ child ∈ entries.map Prod.snd, motive child) (fun entry => motive entry.2)
    ?_ ?_ ?_ ?_ ?_ ?_ ?_ ?_ ?_ ?_ ?_ ?_ ?_ ?_ value
  · exact step _ (by simp [children])
  · intro ty state ih
    exact ih ty
  · simp [Payload.children]
  · intro items ih
    exact ih
  · intro members ih
    exact ih
  · intro entries ih
    exact ih
  · intro ty
    exact step _ (by simp [children])
  · intro ty
    exact step _ (by simp [children])
  · intro payload ih ty
    exact step _ ih
  · simp
  · intro head tail hhead htail
    simpa using ⟨hhead, htail⟩
  · simp
  · intro head tail hhead htail
    simpa using ⟨hhead, by simpa using htail⟩
  · intro key value ih
    exact ih

end Value

end TypedAttributes.Wire
