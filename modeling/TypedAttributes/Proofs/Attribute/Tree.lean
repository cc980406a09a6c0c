/-
# Typed values as trees

What holds of every node of a typed value, how deep its known collections are nested, and the
conditions that well-made values meet at every node: the elements of a collection have its element
type, the keys of a map are distinct, and a value of a custom type wraps one of the base.

Types are compared by `Ty.equal`, so an element may carry another custom type than the one that its
collection declares, as long as the name and the base agree.
-/
import Mathlib.Tactic.Common
import TypedAttributes.Attribute.Value

namespace TypedAttributes.Attribute.Value

variable {ρ : Type}

/-- What holds of every node holds of the root, and of every node of each part. -/
lemma all_iff {test : Value ρ → Bool} {value : Value ρ} :
    value.all test = true ↔ test value = true ∧ ∀ part ∈ value.parts, part.all test = true := by
  rw [all_eq, Bool.and_eq_true, List.all_eq_true]

/-! ## Well-made values -/

/-- Whether the types inside of a value agree: at every depth the elements of a known collection
have a type equal to its element type, and a value of a custom type wraps one of a type equal to the
base. -/
def wellTyped (value : Value ρ) : Bool :=
  value.all fun node =>
    match node with
    | .custom _ base _ inner => inner.ty.equal base
    | collection =>
      collection.elements.all fun element => Ty.elementsEqual (some element.ty) collection.element?

/-- Whether no map in a value has two entries with one key. -/
def keysDistinct (value : Value ρ) : Bool :=
  value.all fun node => decide (Keyed.Distinct node.entries)

/-- Whether no known number in a value is `nan`. -/
def nanFree (value : Value ρ) : Bool :=
  value.all fun node =>
    match node with
    | .scalar .number (.known number) => !Double.isNaN number
    | _ => true

lemma wellTyped_of_mem {value part : Value ρ} (h : value.wellTyped = true)
    (hpart : part ∈ value.parts) : part.wellTyped = true :=
  (all_iff.1 h).2 part hpart

lemma keysDistinct_of_mem {value part : Value ρ} (h : value.keysDistinct = true)
    (hpart : part ∈ value.parts) : part.keysDistinct = true :=
  (all_iff.1 h).2 part hpart

lemma nanFree_of_mem {value part : Value ρ} (h : value.nanFree = true)
    (hpart : part ∈ value.parts) : part.nanFree = true :=
  (all_iff.1 h).2 part hpart

/-! ## Nesting -/

mutual

/-- The greatest number of known collections on a way down from a value. -/
def nesting : Value ρ → Nat
  | .list _ (.known items) => nestingOfItems items + 1
  | .map _ (.known entries) => nestingOfEntries entries + 1
  | .set _ (.known members) => nestingOfItems members + 1
  | .custom _ _ _ inner => inner.nesting
  | _ => 0
termination_by structural value => value

/-- The greatest nesting of some values. -/
def nestingOfItems : List (Value ρ) → Nat
  | [] => 0
  | value :: rest => max value.nesting (nestingOfItems rest)
termination_by structural values => values

/-- The greatest nesting of the values of some entries. -/
def nestingOfEntries : List (String × Value ρ) → Nat
  | [] => 0
  | (_, value) :: rest => max value.nesting (nestingOfEntries rest)
termination_by structural entries => entries

end

lemma nesting_le_nestingOfItems {values : List (Value ρ)} {value : Value ρ} (h : value ∈ values) :
    value.nesting ≤ nestingOfItems values := by
  induction values with
  | nil => simp at h
  | cons first rest ih =>
    rw [nestingOfItems]
    rcases List.mem_cons.1 h with rfl | h
    · exact Nat.le_max_left _ _
    · exact Nat.le_trans (ih h) (Nat.le_max_right _ _)

lemma nestingOfEntries_eq (entries : List (String × Value ρ)) :
    nestingOfEntries entries = nestingOfItems (entries.map Prod.snd) := by
  induction entries with
  | nil => rfl
  | cons entry rest ih => simp [nestingOfEntries, nestingOfItems, ih]

/-- The elements of a known collection are nested less deep than it. -/
lemma nesting_lt_of_mem_elements {value part : Value ρ} (h : part ∈ value.elements) :
    part.nesting < value.nesting := by
  cases value with
  | list element state =>
    rcases state with _ | _ | items
    · simp [elements] at h
    · simp [elements] at h
    · exact Nat.lt_succ_of_le (nesting_le_nestingOfItems h)
  | map element state =>
    rcases state with _ | _ | entries
    · simp [elements] at h
    · simp [elements] at h
    · rw [nesting, nestingOfEntries_eq]
      exact Nat.lt_succ_of_le (nesting_le_nestingOfItems h)
  | set element state =>
    rcases state with _ | _ | members
    · simp [elements] at h
    · simp [elements] at h
    · exact Nat.lt_succ_of_le (nesting_le_nestingOfItems h)
  | _ => simp [elements] at h

end TypedAttributes.Attribute.Value
