/-
# Equality of typed values

Collections are equal when both carry element types that are equal, and their states are.  Lists are
compared item by item, sets by matching their members, and maps by matching their entries, so that
the order of entries means nothing.  Values of custom types are equal when the names, the base types
and the values inside are.
-/
import TypedAttributes.Attribute.Value
import TypedAttributes.Matching

namespace TypedAttributes.Attribute

variable {ρ : Type}

mutual

/-- Equality of typed values. -/
def Value.equal : Value ρ → Value ρ → Bool
  | .scalar j s, .scalar k t => j == k && State.equal Scalar.equal (s.map j.wrap) (t.map k.wrap)
  | .list a .null, .list b .null => Ty.elementsEqual a b
  | .list a .unknown, .list b .unknown => Ty.elementsEqual a b
  | .list a (.known xs), .list b (.known ys) => Ty.elementsEqual a b && itemsEqual xs ys
  | .map a .null, .map b .null => Ty.elementsEqual a b
  | .map a .unknown, .map b .unknown => Ty.elementsEqual a b
  | .map a (.known xs), .map b (.known ys) => Ty.elementsEqual a b && entriesEqual xs ys
  | .set a .null, .set b .null => Ty.elementsEqual a b
  | .set a .unknown, .set b .unknown => Ty.elementsEqual a b
  | .set a (.known xs), .set b (.known ys) => Ty.elementsEqual a b && membersEqual xs ys
  | .custom m a _ x, .custom n b _ y => m == n && a.equal b && x.equal y
  | _, _ => false
termination_by structural value => value

/-- Equality of lists, item by item. -/
def itemsEqual : List (Value ρ) → List (Value ρ) → Bool
  | [], [] => true
  | x :: xs, y :: ys => x.equal y && itemsEqual xs ys
  | _, _ => false
termination_by structural items => items

/-- Equality of sets, by matching their members. -/
def membersEqual : List (Value ρ) → List (Value ρ) → Bool
  | [], ys => ys.isEmpty
  | x :: xs, ys => (takeFirst? (fun y => x.equal y) ys).any fun rest => membersEqual xs rest
termination_by structural members => members

/-- Equality of maps, by matching their entries. -/
def entriesEqual : List (String × Value ρ) → List (String × Value ρ) → Bool
  | [], ys => ys.isEmpty
  | (k, x) :: xs, ys =>
    (takeFirst? (fun entry => k == entry.1 && x.equal entry.2) ys).any fun rest =>
      entriesEqual xs rest
termination_by structural entries => entries

end

/-- Equality of entries of a map. -/
def entryEqual (a b : String × Value ρ) : Bool := a.1 == b.1 && a.2.equal b.2

theorem membersEqual_eq_matched (xs ys : List (Value ρ)) :
    membersEqual xs ys = matched Value.equal xs ys := by
  induction xs generalizing ys with
  | nil => rfl
  | cons x xs ih => simp [membersEqual, matched, ih]

theorem entriesEqual_eq_matched (xs ys : List (String × Value ρ)) :
    entriesEqual xs ys = matched entryEqual xs ys := by
  induction xs generalizing ys with
  | nil => rfl
  | cons entry xs ih =>
    obtain ⟨k, x⟩ := entry
    simp only [entriesEqual, matched, ih]
    rfl

/-- Whether a value is a member of a known set, or an item or the value of an entry of another known
collection. -/
def Value.contains (collection value : Value ρ) : Bool :=
  collection.elements.any fun element => element.equal value

end TypedAttributes.Attribute
