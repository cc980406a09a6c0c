/-
# Typed values

A typed value is a scalar, a collection that carries its element type, or a value of a custom type
wrapped around one of its base type.  Scalars and collections are null, unknown or known.

The entries of a map are kept in the order in which their keys first occurred.  Nothing ties the
elements of a collection to its element type; `Value.newList`, `Value.newSet` and `Value.newMap`
build collections where they agree.
-/
import TypedAttributes.Attribute.Ty
import TypedAttributes.State
import TypedAttributes.Keyed

namespace TypedAttributes.Attribute

/-- A typed value. -/
inductive Value (ρ : Type) where
  | scalar (kind : Scalar.Kind) (state : State kind.Content)
  | list (element : Option (Ty ρ)) (state : State (List (Value ρ)))
  /-- Entries in the order in which their keys first occurred. -/
  | map (element : Option (Ty ρ)) (state : State (List (String × Value ρ)))
  | set (element : Option (Ty ρ)) (state : State (List (Value ρ)))
  /-- A value of the named custom type. -/
  | custom (name : String) (base : Ty ρ) (validation : Validation ρ) (inner : Value ρ)

namespace Value

variable {ρ : Type}

/-- The known value of a scalar. -/
def ofScalar : Scalar → Value ρ
  | .string text => .scalar .string (.known text)
  | .number value => .scalar .number (.known value)
  | .bool value => .scalar .bool (.known value)

/-- The type of a value. -/
def ty : Value ρ → Ty ρ
  | .scalar kind _ => .scalar kind
  | .list element _ => .ofElement .list element
  | .map element _ => .ofElement .map element
  | .set element _ => .ofElement .set element
  | .custom name base validation _ => .custom name base validation

/-- Whether a value is null; a value of a custom type is when the value in it is. -/
def isNull : Value ρ → Bool
  | .scalar _ state => state.isNull
  | .list _ state => state.isNull
  | .map _ state => state.isNull
  | .set _ state => state.isNull
  | .custom _ _ _ inner => inner.isNull

/-- Whether a value is unknown; a value of a custom type is when the value in it is. -/
def isUnknown : Value ρ → Bool
  | .scalar _ state => state.isUnknown
  | .list _ state => state.isUnknown
  | .map _ state => state.isUnknown
  | .set _ state => state.isUnknown
  | .custom _ _ _ inner => inner.isUnknown

/-- The null collection of a shape and an element type. -/
def nullCollection : Shape → Option (Ty ρ) → Value ρ
  | .list, element => .list element .null
  | .map, element => .map element .null
  | .set, element => .set element .null

/-- The unknown collection of a shape and an element type. -/
def unknownCollection : Shape → Option (Ty ρ) → Value ρ
  | .list, element => .list element .unknown
  | .map, element => .map element .unknown
  | .set, element => .set element .unknown

/-- The null value of a type, which holds no more than the type. -/
def null : Ty ρ → Value ρ
  | .scalar kind => .scalar kind .null
  | .collection shape element => nullCollection shape (some element)
  | .bare shape => nullCollection shape none
  | .custom name base validation => .custom name base validation (null base)

/-- The unknown value of a type. -/
def unknown : Ty ρ → Value ρ
  | .scalar kind => .scalar kind .unknown
  | .collection shape element => unknownCollection shape (some element)
  | .bare shape => unknownCollection shape none
  | .custom name base validation => .custom name base validation (unknown base)

/-- The element type that a collection carries. -/
def element? : Value ρ → Option (Ty ρ)
  | .list element _ => element
  | .map element _ => element
  | .set element _ => element
  | _ => none

/-- The shape of a collection. -/
def shape? : Value ρ → Option Shape
  | .list _ _ => some .list
  | .map _ _ => some .map
  | .set _ _ => some .set
  | _ => none

/-- The elements of a known collection in order; none of any other value. -/
def elements : Value ρ → List (Value ρ)
  | .list _ (.known items) => items
  | .map _ (.known entries) => entries.map Prod.snd
  | .set _ (.known members) => members
  | _ => []

/-- The entries of a known map; none of any other value. -/
def entries : Value ρ → List (String × Value ρ)
  | .map _ (.known entries) => entries
  | _ => []

/-- The value of a known map under a key. -/
def get? (value : Value ρ) (key : String) : Option (Value ρ) := value.entries.lookup key

/-- The value that a collection type hands out for one of its collections: the collection itself. -/
def present (_ty : Ty ρ) (collection : Value ρ) : Value ρ := collection

/-- The values directly inside of a value: the elements of a known collection, and the value inside
of one of a custom type. -/
def parts : Value ρ → List (Value ρ)
  | .list _ (.known items) => items
  | .map _ (.known entries) => entries.map Prod.snd
  | .set _ (.known members) => members
  | .custom _ _ _ inner => [inner]
  | _ => []

mutual

/-- Whether a test holds of a value and of everything in it. -/
def all (test : Value ρ → Bool) : Value ρ → Bool
  | .list element (.known items) => test (.list element (.known items)) && allOfItems test items
  | .map element (.known entries) =>
    test (.map element (.known entries)) && allOfEntries test entries
  | .set element (.known members) => test (.set element (.known members)) && allOfItems test members
  | .custom name base validation inner =>
    test (.custom name base validation inner) && inner.all test
  | value => test value
termination_by structural value => value

/-- Whether a test holds of some values and of everything in them. -/
def allOfItems (test : Value ρ → Bool) : List (Value ρ) → Bool
  | [] => true
  | value :: rest => value.all test && allOfItems test rest
termination_by structural values => values

/-- Whether a test holds of the values of some entries and of everything in them. -/
def allOfEntries (test : Value ρ → Bool) : List (String × Value ρ) → Bool
  | [] => true
  | (_, value) :: rest => value.all test && allOfEntries test rest
termination_by structural entries => entries

end

theorem allOfItems_eq (test : Value ρ → Bool) (values : List (Value ρ)) :
    allOfItems test values = values.all (all test) := by
  induction values with
  | nil => rfl
  | cons value rest ih => simp [allOfItems, ih]

theorem allOfEntries_eq (test : Value ρ → Bool) (entries : List (String × Value ρ)) :
    allOfEntries test entries = (entries.map Prod.snd).all (all test) := by
  induction entries with
  | nil => rfl
  | cons entry rest ih =>
    obtain ⟨key, value⟩ := entry
    simp [allOfEntries, ih]

/-- A test holds of a value and of everything in it when it holds of the value and of each part and
everything in that. -/
theorem all_eq (test : Value ρ → Bool) (value : Value ρ) :
    value.all test = (test value && value.parts.all (all test)) := by
  rcases value with ⟨kind, state⟩ | ⟨element, _ | _ | items⟩ | ⟨element, _ | _ | entries⟩ |
      ⟨element, _ | _ | members⟩ | ⟨name, base, validation, inner⟩ <;>
    simp [all, parts, allOfItems_eq, allOfEntries_eq]

/-- Induction on values: what holds of a value as soon as it holds of its parts holds of all
values. -/
theorem induction {motive : Value ρ → Prop}
    (step : ∀ value, (∀ part ∈ value.parts, motive part) → motive value) (value : Value ρ) :
    motive value := by
  refine @Value.rec ρ motive
    (fun state => ∀ items, state = .known items → ∀ part ∈ items, motive part)
    (fun state => ∀ entries, state = .known entries → ∀ part ∈ entries.map Prod.snd, motive part)
    (fun items => ∀ part ∈ items, motive part)
    (fun entries => ∀ part ∈ entries.map Prod.snd, motive part) (fun entry => motive entry.2)
    ?_ ?_ ?_ ?_ ?_ ?_ ?_ ?_ ?_ ?_ ?_ ?_ ?_ ?_ ?_ ?_ value
  · intro kind state
    exact step _ (by simp [parts])
  · intro element state ih
    refine step _ ?_
    rcases state with _ | _ | items
    · simp [parts]
    · simp [parts]
    · exact ih items rfl
  · intro element state ih
    refine step _ ?_
    rcases state with _ | _ | entries
    · simp [parts]
    · simp [parts]
    · exact ih entries rfl
  · intro element state ih
    refine step _ ?_
    rcases state with _ | _ | members
    · simp [parts]
    · simp [parts]
    · exact ih members rfl
  · intro name base validation inner ih
    exact step _ (by simpa [parts] using ih)
  · intro items h
    cases h
  · intro items h
    cases h
  · intro content ih items h
    cases h
    exact ih
  · intro entries h
    cases h
  · intro entries h
    cases h
  · intro content ih entries h
    cases h
    exact ih
  · simp
  · intro head tail hhead htail
    simpa using ⟨hhead, htail⟩
  · simp
  · intro head tail hhead htail
    simpa using ⟨hhead, by simpa using htail⟩
  · intro key value ih
    exact ih

end Value

end TypedAttributes.Attribute
