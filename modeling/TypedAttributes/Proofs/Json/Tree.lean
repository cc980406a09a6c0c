/-
# Documents as trees

What a document is made of, node by node.  Two things are said of every node: the entries of objects
are in ascending order of their keys, which every document that is read from a text keeps to, and
numbers are rounded to doubles, which is what decoding does to them.  `RoundsTo` says what rounding
is without computing it: no finite double is nearer to a number than the one that it is replaced by.
-/
import TypedAttributes.Json.Reading
import TypedAttributes.Proofs.Double.Nearest
import TypedAttributes.Proofs.KeyOrder

namespace TypedAttributes.Json

/-- The children of a document: the items of an array, the values of an object by ascending key. -/
def children : Json → List Json
  | .array items => items
  | .object entries => entries.map Prod.snd
  | _ => []

/-! ## Numbers rounded to doubles -/

/-- The double nearest to a number of a document is finite. -/
lemma Number.isFinite_toDouble (number : Number) : number.toDouble.isFinite = true := by
  cases number with
  | integer value fits => exact Double.isFinite_ofInt (by omega)
  | double value finite => exact finite

/-- The exact value of a number, in units of doubles. -/
def Number.signedUnits : Number → Int
  | .integer value _ => value * Double.unitsPerOne
  | .double value _ => value.signedUnits

/-- No finite double is nearer to a number than the one that stands for it. -/
theorem Number.natAbs_toDouble_sub_le (number : Number) {other : Double}
    (hother : other.isFinite = true) :
    (number.toDouble.signedUnits - number.signedUnits).natAbs ≤
      (other.signedUnits - number.signedUnits).natAbs := by
  cases number with
  | integer value fits => exact Double.natAbs_ofInt_sub_le (by omega) hother
  | double value finite => simp [toDouble, signedUnits]

/-- Whether a double is finite and no finite double is nearer to a number. -/
def Number.IsNearest (number : Number) (value : Double) : Prop :=
  value.isFinite = true ∧ ∀ other : Double, other.isFinite = true →
    (value.signedUnits - number.signedUnits).natAbs ≤
      (other.signedUnits - number.signedUnits).natAbs

lemma Number.isNearest_toDouble (number : Number) : number.IsNearest number.toDouble :=
  ⟨number.isFinite_toDouble, fun _ => number.natAbs_toDouble_sub_le⟩

/-- A number replaced by the double nearest to it. -/
def Number.rounded (number : Number) : Number := .double number.toDouble number.isFinite_toDouble

mutual

/-- A document with every number replaced by the double nearest to it. -/
def rounded : Json → Json
  | .null => .null
  | .bool value => .bool value
  | .number value => .number value.rounded
  | .string text => .string text
  | .array items => .array (roundedItems items)
  | .object entries => .object (roundedEntries entries)
termination_by structural json => json

/-- The items of an array with every number replaced. -/
def roundedItems : List Json → List Json
  | [] => []
  | item :: rest => item.rounded :: roundedItems rest
termination_by structural items => items

/-- The entries of an object with every number replaced. -/
def roundedEntries : List (String × Json) → List (String × Json)
  | [] => []
  | (key, value) :: rest => (key, value.rounded) :: roundedEntries rest
termination_by structural entries => entries

end

lemma roundedItems_eq (items : List Json) : roundedItems items = items.map rounded := by
  induction items with
  | nil => rfl
  | cons item rest ih => rw [roundedItems, ih, List.map_cons]

lemma roundedEntries_eq (entries : List (String × Json)) :
    roundedEntries entries = Keyed.mapValues rounded entries := by
  induction entries with
  | nil => rfl
  | cons entry rest ih =>
    obtain ⟨key, value⟩ := entry
    rw [roundedEntries, ih]
    rfl

lemma rounded_array (items : List Json) : (array items).rounded = .array (items.map rounded) := by
  rw [rounded, roundedItems_eq]

lemma rounded_object (entries : List (String × Json)) :
    (object entries).rounded = .object (Keyed.mapValues rounded entries) := by
  rw [rounded, roundedEntries_eq]

/-- Whether one document is another in which every number is replaced by a double nearest to it. -/
inductive RoundsTo : Json → Json → Prop
  | null : RoundsTo .null .null
  | bool (value : Bool) : RoundsTo (.bool value) (.bool value)
  | string (text : String) : RoundsTo (.string text) (.string text)
  | number {number : Number} {value : Double} (h : number.IsNearest value) :
      RoundsTo (.number number) (.number (.double value h.1))
  | array {items items' : List Json} (h : List.Forall₂ RoundsTo items items') :
      RoundsTo (.array items) (.array items')
  | object {entries entries' : List (String × Json)}
      (hkeys : Keyed.keys entries = Keyed.keys entries')
      (h : List.Forall₂ RoundsTo (entries.map Prod.snd) (entries'.map Prod.snd)) :
      RoundsTo (.object entries) (.object entries')

lemma keys_roundedEntries (entries : List (String × Json)) :
    Keyed.keys (roundedEntries entries) = Keyed.keys entries := by
  rw [roundedEntries_eq, Keyed.keys_mapValues]

mutual

/-- In the rounded document every number is replaced by a double nearest to it, at every depth. -/
theorem roundsTo_rounded : ∀ json : Json, json.RoundsTo json.rounded
  | .null => .null
  | .bool value => .bool value
  | .number value => .number value.isNearest_toDouble
  | .string text => .string text
  | .array items => .array (roundsTo_roundedItems items)
  | .object entries => .object (keys_roundedEntries entries).symm (roundsTo_roundedEntries entries)
termination_by structural json => json

theorem roundsTo_roundedItems :
    ∀ items : List Json, List.Forall₂ RoundsTo items (roundedItems items)
  | [] => .nil
  | item :: rest => .cons (roundsTo_rounded item) (roundsTo_roundedItems rest)
termination_by structural items => items

theorem roundsTo_roundedEntries : ∀ entries : List (String × Json),
    List.Forall₂ RoundsTo (entries.map Prod.snd) ((roundedEntries entries).map Prod.snd)
  | [] => .nil
  | (_, value) :: rest => .cons (roundsTo_rounded value) (roundsTo_roundedEntries rest)
termination_by structural entries => entries

end

/-! ## Keys in ascending order -/

mutual

/-- Whether the entries of every object in a document are in ascending order of their keys. -/
def keysAscend : Json → Bool
  | .array items => keysAscendInItems items
  | .object entries => decide (Keyed.Ascending entries) && keysAscendInEntries entries
  | _ => true
termination_by structural json => json

/-- Whether it is so in every item of an array. -/
def keysAscendInItems : List Json → Bool
  | [] => true
  | item :: rest => item.keysAscend && keysAscendInItems rest
termination_by structural items => items

/-- Whether it is so in the value of every entry of an object. -/
def keysAscendInEntries : List (String × Json) → Bool
  | [] => true
  | (_, value) :: rest => value.keysAscend && keysAscendInEntries rest
termination_by structural entries => entries

end

lemma keysAscendInItems_iff {items : List Json} :
    keysAscendInItems items = true ↔ ∀ item ∈ items, item.keysAscend = true := by
  induction items with
  | nil => simp [keysAscendInItems]
  | cons item rest ih => rw [keysAscendInItems, Bool.and_eq_true, ih, List.forall_mem_cons]

lemma keysAscendInEntries_eq (entries : List (String × Json)) :
    keysAscendInEntries entries = keysAscendInItems (entries.map Prod.snd) := by
  induction entries with
  | nil => rfl
  | cons entry rest ih =>
    rw [keysAscendInEntries, List.map_cons, keysAscendInItems, ih]

/-- The keys ascend in the entries of an object, and in each of the values. -/
lemma keysAscend_object_iff {entries : List (String × Json)} :
    (object entries).keysAscend = true ↔
      Keyed.Ascending entries ∧ ∀ value ∈ entries.map Prod.snd, value.keysAscend = true := by
  rw [keysAscend, Bool.and_eq_true, decide_eq_true_eq, keysAscendInEntries_eq,
    keysAscendInItems_iff]

lemma keysAscend_of_mem {json child : Json} (h : json.keysAscend = true)
    (hchild : child ∈ json.children) : child.keysAscend = true := by
  cases json with
  | array items => exact keysAscendInItems_iff.1 h child hchild
  | object entries => exact (keysAscend_object_iff.1 h).2 child hchild
  | _ => cases hchild

mutual

/-- In the document that a writing stands for the keys ascend, whatever their order in the
writing. -/
theorem keysAscend_toJson : ∀ written : Written, written.toJson.keysAscend = true
  | .null => rfl
  | .bool _ => rfl
  | .number _ => rfl
  | .string _ => rfl
  | .array items => keysAscendInItems_iff.2 (keysAscend_itemsToJson items)
  | .object entries => by
    refine keysAscend_object_iff.2 ⟨Keyed.ascending_ofEntries _, fun value hvalue => ?_⟩
    obtain ⟨entry, hentry, rfl⟩ := List.mem_map.1 hvalue
    exact keysAscend_entriesToJson entries entry (Keyed.mem_of_mem_ofEntries hentry)
termination_by structural written => written

theorem keysAscend_itemsToJson :
    ∀ items : List Written, ∀ item ∈ Written.itemsToJson items, item.keysAscend = true
  | [] => nofun
  | item :: rest => List.forall_mem_cons.2 ⟨keysAscend_toJson item, keysAscend_itemsToJson rest⟩
termination_by structural items => items

theorem keysAscend_entriesToJson : ∀ entries : List (String × Written),
    ∀ entry ∈ Written.entriesToJson entries, entry.2.keysAscend = true
  | [] => nofun
  | (_, value) :: rest =>
    List.forall_mem_cons.2 ⟨keysAscend_toJson value, keysAscend_entriesToJson rest⟩
termination_by structural entries => entries

end

/-- Every document that is read from a text has its entries in ascending order. -/
theorem keysAscend_of_parse {text : String} {json : Json} (h : parse text = .ok json) :
    json.keysAscend = true := by
  obtain ⟨written, -, hjson⟩ := bind_eq_ok_iff.1 h
  obtain rfl := pure_eq_ok_iff.1 hjson
  exact keysAscend_toJson written

end TypedAttributes.Json
