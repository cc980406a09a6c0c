/-
# Equality of wire values

Two values are equal when they declare the same type, or neither declares one, and are in equal
states.  Lists are compared item by item, maps entry by entry, and sets as multisets: each member is
paired with the first equal member of the other set that is still free.
-/
import TypedAttributes.Wire.Value
import TypedAttributes.Matching

namespace TypedAttributes.Wire

mutual

/-- Equality of wire values. -/
def Value.equal : Value → Value → Bool
  | .untyped, .untyped => true
  | .typed s .null, .typed t .null => s == t
  | .typed s .unknown, .typed t .unknown => s == t
  | .typed s (.known p), .typed t (.known q) => s == t && p.equal q
  | _, _ => false
termination_by structural value => value

/-- Equality of payloads. -/
def Payload.equal : Payload → Payload → Bool
  | .scalar a, .scalar b => a.equal b
  | .list xs, .list ys => itemsEqual xs ys
  | .set xs, .set ys => membersEqual xs ys
  | .map xs, .map ys => entriesEqual xs ys
  | _, _ => false
termination_by structural payload => payload

/-- Equality of lists, item by item. -/
def itemsEqual : List Value → List Value → Bool
  | [], [] => true
  | x :: xs, y :: ys => x.equal y && itemsEqual xs ys
  | _, _ => false
termination_by structural items => items

/-- Equality of sets, by matching their members. -/
def membersEqual : List Value → List Value → Bool
  | [], ys => ys.isEmpty
  | x :: xs, ys => (takeFirst? (fun y => x.equal y) ys).any fun rest => membersEqual xs rest
termination_by structural members => members

/-- Equality of maps, entry by entry in key order. -/
def entriesEqual : List (String × Value) → List (String × Value) → Bool
  | [], [] => true
  | (j, x) :: xs, (k, y) :: ys => j == k && x.equal y && entriesEqual xs ys
  | _, _ => false
termination_by structural entries => entries

end

/-- Sets are compared by matching their members. -/
theorem membersEqual_eq_matched (xs ys : List Value) :
    membersEqual xs ys = matched Value.equal xs ys := by
  induction xs generalizing ys with
  | nil => rfl
  | cons x xs ih => simp [membersEqual, matched, ih]

/-- Values are equal when their declared types are the same and their states are equal. -/
theorem Value.equal_eq (a b : Value) :
    a.equal b = (a.ty? == b.ty? && a.state.equal Payload.equal b.state) := by
  rcases a with _ | ⟨s, _ | _ | p⟩ <;> rcases b with _ | ⟨t, _ | _ | q⟩ <;>
    simp [equal, ty?, state, State.equal]

end TypedAttributes.Wire
