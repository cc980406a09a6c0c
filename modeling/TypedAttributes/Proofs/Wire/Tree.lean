/-
# Wire values as trees

A wire value is a tree whose nodes are the value, its children, their children and so on.  Two
things are said about such trees here: what holds of every node, and how many known collections lie
on a way down.  The second is what a limit on nesting limits.  It is defined by recursion, as
`Value.nesting`, and `Value.nesting_le_iff_descents` says that this is the greatest number of
collections on any way down.
-/
import Mathlib.Tactic.Common
import Mathlib.Data.List.Basic
import TypedAttributes.Wire.Value

namespace TypedAttributes.Wire

namespace Payload

/-- The entries of a map; other payloads have none. -/
def entries : Payload → List (String × Value)
  | .map entries => entries
  | _ => []

/-- Whether a payload has children, though it may have none at present. -/
def isCollection : Payload → Bool
  | .scalar _ => false
  | _ => true

@[simp] lemma children_scalar (content : Scalar) : (scalar content).children = [] := rfl

@[simp] lemma children_list (items : List Value) : (list items).children = items := rfl

@[simp] lemma children_set (members : List Value) : (set members).children = members := rfl

@[simp] lemma children_map (entries : List (String × Value)) :
    (map entries).children = entries.map Prod.snd := rfl

lemma eq_scalar_of_kind {kind : Scalar.Kind} {payload : Payload}
    (h : payload.kind = .scalar kind) :
    ∃ content, payload = .scalar content ∧ content.kind = kind := by
  cases payload with
  | scalar content => exact ⟨content, rfl, by simpa [Payload.kind] using h⟩
  | list items => simp [Payload.kind] at h
  | set members => simp [Payload.kind] at h
  | map entries => simp [Payload.kind] at h

lemma eq_list_of_kind {payload : Payload} (h : payload.kind = .collection .list) :
    payload = .list payload.children := by
  cases payload <;> simp_all [Payload.kind, children]

lemma eq_set_of_kind {payload : Payload} (h : payload.kind = .collection .set) :
    payload = .set payload.children := by
  cases payload <;> simp_all [Payload.kind, children]

lemma eq_map_of_kind {payload : Payload} (h : payload.kind = .collection .map) :
    payload = .map payload.entries := by
  cases payload <;> simp_all [Payload.kind, entries]

lemma map_snd_entries {payload : Payload} (h : payload.kind = .collection .map) :
    payload.entries.map Prod.snd = payload.children := by
  cases payload <;> simp_all [Payload.kind, entries]

lemma mem_children_of_mem_entries {payload : Payload} {entry : String × Value}
    (h : entry ∈ payload.entries) : entry.2 ∈ payload.children := by
  cases payload with
  | map entries => exact List.mem_map_of_mem h
  | _ => cases h

lemma isCollection_eq_of_kind {p q : Payload} (h : p.kind = q.kind) :
    p.isCollection = q.isCollection := by
  cases p <;> cases q <;> simp_all [Payload.kind, isCollection]

lemma isCollection_of_kind {shape : Shape} {payload : Payload}
    (h : payload.kind = .collection shape) : payload.isCollection = true := by
  cases payload <;> simp_all [Payload.kind, isCollection]

end Payload

namespace Value

/-- A value with a payload is the known value of its type and that payload. -/
lemma eq_known_of_payload? {value : Value} {ty : Ty} {payload : Payload} (hty : value.ty? = some ty)
    (hpayload : value.payload? = some payload) : value = known ty payload := by
  rcases value with _ | ⟨declared, _ | _ | content⟩ <;> cases hpayload
  cases hty
  rfl

/-- A value without a payload that is determined is the null of its type. -/
lemma eq_null_of_payload? {value : Value} {ty : Ty} (hty : value.ty? = some ty)
    (hknown : value.isKnown = true) (hpayload : value.payload? = none) : value = null ty := by
  rcases value with _ | ⟨declared, _ | _ | content⟩
  · cases hty
  · cases hty
    rfl
  · cases hknown
  · cases hpayload

lemma children_of_payload? {value : Value} {payload : Payload} (h : value.payload? = some payload) :
    value.children = payload.children := by
  rcases value with _ | ⟨ty, _ | _ | content⟩ <;> cases h
  rfl

/-- A value without a payload has no children. -/
lemma children_of_payload?_eq_none {value : Value} (h : value.payload? = none) :
    value.children = [] := by
  rcases value with _ | ⟨ty, _ | _ | content⟩
  · rfl
  · rfl
  · rfl
  · cases h

/-- What holds of every node holds of the root, and of every node of each child. -/
lemma all_iff {test : Value → Bool} {value : Value} :
    value.all test = true ↔
      test value = true ∧ ∀ child ∈ value.children, child.all test = true := by
  rw [all_eq, Bool.and_eq_true, List.all_eq_true]

lemma isFullyKnown_iff {value : Value} :
    value.isFullyKnown = true ↔
      value.isKnown = true ∧ ∀ child ∈ value.children, child.isFullyKnown = true :=
  all_iff

/-- Whether a value is a known collection. -/
def isCollection : Value → Bool
  | .typed _ (.known payload) => payload.isCollection
  | _ => false

/-! ## Nesting -/

mutual

/-- The greatest number of known collections on a way down from a value. -/
def nesting : Value → Nat
  | .untyped => 0
  | .typed _ .null => 0
  | .typed _ .unknown => 0
  | .typed _ (.known payload) => nestingOfPayload payload
termination_by structural value => value

/-- The nesting of a known value with this payload. -/
def nestingOfPayload : Payload → Nat
  | .scalar _ => 0
  | .list items => nestingOfItems items + 1
  | .set members => nestingOfItems members + 1
  | .map entries => nestingOfEntries entries + 1
termination_by structural payload => payload

/-- The greatest nesting of some values. -/
def nestingOfItems : List Value → Nat
  | [] => 0
  | value :: rest => max value.nesting (nestingOfItems rest)
termination_by structural values => values

/-- The greatest nesting of the values of some entries. -/
def nestingOfEntries : List (String × Value) → Nat
  | [] => 0
  | (_, value) :: rest => max value.nesting (nestingOfEntries rest)
termination_by structural entries => entries

end

lemma nestingOfItems_le_iff {values : List Value} {d : Nat} :
    nestingOfItems values ≤ d ↔ ∀ value ∈ values, value.nesting ≤ d := by
  induction values with
  | nil => simp [nestingOfItems]
  | cons value rest ih => rw [nestingOfItems, Nat.max_le, ih, List.forall_mem_cons]

lemma nestingOfEntries_eq (entries : List (String × Value)) :
    nestingOfEntries entries = nestingOfItems (entries.map Prod.snd) := by
  induction entries with
  | nil => rfl
  | cons entry rest ih => simp [nestingOfEntries, nestingOfItems, ih]

lemma nesting_of_isCollection {value : Value} (h : value.isCollection = true) :
    value.nesting = nestingOfItems value.children + 1 := by
  rcases value with _ | ⟨ty, _ | _ | payload⟩
  · simp [isCollection] at h
  · simp [isCollection] at h
  · simp [isCollection] at h
  · cases payload with
    | scalar content => simp [isCollection, Payload.isCollection] at h
    | list items => rfl
    | set members => rfl
    | map entries => exact congrArg (· + 1) (nestingOfEntries_eq entries)

lemma nesting_of_not_isCollection {value : Value} (h : value.isCollection = false) :
    value.nesting = 0 := by
  rcases value with _ | ⟨ty, _ | _ | payload⟩
  · rfl
  · rfl
  · rfl
  · cases payload <;> simp_all [isCollection, Payload.isCollection, nesting, nestingOfPayload]

/-- A known collection fits under a limit when there is room for it and its children fit under the
rest. -/
lemma nesting_le_iff {value : Value} (h : value.isCollection = true) {d : Nat} :
    value.nesting ≤ d ↔ 0 < d ∧ ∀ child ∈ value.children, child.nesting ≤ d - 1 := by
  rw [nesting_of_isCollection h, ← nestingOfItems_le_iff]
  omega

/-- A way down from a value: the value, one of its children, one of the children of that, and so
on. -/
inductive Descent : Value → List Value → Prop
  /-- The way that ends at the value. -/
  | stop (value : Value) : Descent value [value]
  /-- The way that goes on from a child. -/
  | down {value child : Value} {path : List Value} (hchild : child ∈ value.children)
      (hpath : Descent child path) : Descent value (value :: path)

lemma children_of_not_isCollection {value : Value} (h : value.isCollection = false) :
    value.children = [] := by
  rcases value with _ | ⟨ty, _ | _ | payload⟩
  · rfl
  · rfl
  · rfl
  · cases payload <;> simp_all [isCollection, Payload.isCollection, children, Payload.children]

/-- The nesting of a value is within a limit exactly when no way down passes through more known
collections. -/
lemma nesting_le_iff_descents (value : Value) (d : Nat) :
    value.nesting ≤ d ↔ ∀ path, Descent value path → path.countP isCollection ≤ d := by
  induction value using Value.induction generalizing d with
  | step value ih =>
    cases hvalue : value.isCollection with
    | false =>
      -- the only way down is the one that stops at once
      have hchildren := children_of_not_isCollection hvalue
      simp only [nesting_of_not_isCollection hvalue, Nat.zero_le, true_iff]
      rintro path (_ | ⟨hchild, -⟩)
      · simp [hvalue]
      · simp [hchildren] at hchild
    | true =>
      rw [nesting_le_iff hvalue]
      constructor
      · rintro ⟨hd, hchildren⟩ path (_ | ⟨hchild, hpath⟩)
        · rw [List.countP_cons_of_pos hvalue, List.countP_nil]
          exact hd
        · have hbelow := (ih _ hchild (d - 1)).1 (hchildren _ hchild) _ hpath
          rw [List.countP_cons_of_pos hvalue]
          omega
      · intro h
        have hroot := h [value] (.stop value)
        rw [List.countP_cons_of_pos hvalue, List.countP_nil] at hroot
        refine ⟨hroot, fun child hchild => (ih child hchild _).2 fun path hpath => ?_⟩
        have hall := h (value :: path) (.down hchild hpath)
        rw [List.countP_cons_of_pos hvalue] at hall
        omega

end Value

end TypedAttributes.Wire
