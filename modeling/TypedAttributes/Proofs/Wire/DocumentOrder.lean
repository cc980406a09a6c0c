/-
# Document order

A way down into a value is a list of positions among children.  Where two ways part they lead to
different children of one node, and the way to the earlier child comes first.  In a map this is the
child with the smaller key, as long as the entries of the map are in ascending order.

A traversal in document order that stops at some node stops at the first node of a kind.
`Value.IsFirst` says which node that is without the traversal; it is found by going down into the
first child that has such a node in it.
-/
import TypedAttributes.Proofs.KeyOrder
import TypedAttributes.Proofs.Wire.Repetition

namespace TypedAttributes.Wire.Value

/-- Whether one way into a value comes before another in document order. -/
def Precedes (value : Value) (way way' : List Nat) : Prop :=
  ∃ common node i j rest rest', way = common ++ i :: rest ∧ way' = common ++ j :: rest' ∧
    value.node? common = some node ∧ i < j ∧
    (value.keysAscend = true → ∀ entries x y, node.payload? = some (.map entries) →
      entries[i]? = some x → entries[j]? = some y → x.1 < y.1)

lemma ascending_of_payload? {value : Value} {entries : List (String × Value)}
    (hkeys : value.keysAscend = true) (hpayload : value.payload? = some (.map entries)) :
    Keyed.Ascending entries := by
  have hnode := (all_iff.1 hkeys).1
  simpa only [hpayload, decide_eq_true_eq] using hnode

/-- A way to an earlier child comes before a way to a later one. -/
lemma precedes_of_lt (value : Value) {i j : Nat} (h : i < j) (rest rest' : List Nat) :
    value.Precedes (i :: rest) (j :: rest') := by
  refine ⟨[], value, i, j, rest, rest', rfl, rfl, rfl, h, ?_⟩
  intro hkeys entries x y hpayload hx hy
  have hascending := List.pairwise_iff_getElem.1 (ascending_of_payload? hkeys hpayload)
  obtain ⟨hi, rfl⟩ := List.getElem?_eq_some_iff.1 hx
  obtain ⟨hj, rfl⟩ := List.getElem?_eq_some_iff.1 hy
  simpa [Keyed.keys] using hascending i j (by simpa [Keyed.keys] using hi)
    (by simpa [Keyed.keys] using hj) h

/-- Ways through one child come in the order in which they come in the child. -/
lemma Precedes.below {value child : Value} {i : Nat} {way way' : List Nat}
    (hchild : value.children[i]? = some child) (h : child.Precedes way way') :
    value.Precedes (i :: way) (i :: way') := by
  obtain ⟨common, node, j, k, rest, rest', rfl, rfl, hnode, hjk, hkeys⟩ := h
  refine ⟨i :: common, node, j, k, rest, rest', rfl, rfl, ?_, hjk, fun hascend => hkeys ?_⟩
  · rw [node?, hchild, Option.bind_some, hnode]
  · exact (all_iff.1 hascend).2 child (List.mem_of_getElem? hchild)

lemma Precedes.ne {value : Value} {way way' : List Nat} (h : value.Precedes way way') :
    way ≠ way' := by
  obtain ⟨common, -, i, j, rest, rest', rfl, rfl, -, hij, -⟩ := h
  intro heq
  have hsame := List.head_eq_of_cons_eq (List.append_cancel_left heq)
  omega

/-! ## Nodes and what is in them -/

/-- Whether the node at one way comes before the node at another: the second node lies in the first,
or the ways part and the first way comes before the second. -/
def Before (value : Value) (way way' : List Nat) : Prop :=
  (∃ position rest, way' = way ++ position :: rest) ∨ value.Precedes way way'

/-- The value itself comes before everything in it. -/
lemma before_root (value : Value) (position : Nat) (rest : List Nat) :
    value.Before [] (position :: rest) :=
  Or.inl ⟨position, rest, rfl⟩

lemma before_of_lt (value : Value) {i j : Nat} (h : i < j) (rest rest' : List Nat) :
    value.Before (i :: rest) (j :: rest') :=
  Or.inr (value.precedes_of_lt h rest rest')

lemma Before.below {value child : Value} {i : Nat} {way way' : List Nat}
    (hchild : value.children[i]? = some child) (h : child.Before way way') :
    value.Before (i :: way) (i :: way') := by
  obtain ⟨position, rest, rfl⟩ | h := h
  · exact Or.inl ⟨position, rest, rfl⟩
  · exact Or.inr (h.below hchild)

/-- The ways to nodes of which one comes before the other are in lexicographic order. -/
lemma Before.lt {value : Value} {way way' : List Nat} (h : value.Before way way') : way < way' := by
  obtain ⟨position, rest, rfl⟩ | h := h
  · have hlonger : way ++ [] < way ++ position :: rest :=
      List.append_left_lt (List.nil_lt_cons position rest)
    rwa [List.append_nil] at hlonger
  · obtain ⟨common, -, i, j, rest, rest', rfl, rfl, -, hij, -⟩ := h
    exact List.append_left_lt (List.cons_lt_cons_iff.2 (Or.inl hij))

/-! ## The first of some nodes -/

/-- Whether the node at a way is one of those at some ways and comes before all the others. -/
def IsFirst (value : Value) (ways : List Nat → Prop) (way : List Nat) : Prop :=
  ways way ∧ ∀ other, ways other → other ≠ way → value.Before way other

variable {value child : Value} {ways : List Nat → Prop}

/-- The value itself, if it is one of the nodes, is the first of them. -/
lemma isFirst_root (h : ways []) : value.IsFirst ways [] := by
  refine ⟨h, fun other _ hne => ?_⟩
  obtain ⟨position, rest, rfl⟩ := List.exists_cons_of_ne_nil hne
  exact value.before_root position rest

/-- Where neither the value nor anything in the earlier children is one of the nodes, the first of
those in a child is the first of all. -/
lemma IsFirst.below {position : Nat} {way : List Nat} (hroot : ¬ ways [])
    (hearlier : ∀ i < position, ∀ rest, ¬ ways (i :: rest))
    (hchild : value.children[position]? = some child)
    (h : child.IsFirst (fun rest => ways (position :: rest)) way) :
    value.IsFirst ways (position :: way) := by
  obtain ⟨hway, hfirst⟩ := h
  refine ⟨hway, ?_⟩
  rintro (_ | ⟨i, rest⟩) hother hne
  · exact absurd hother hroot
  rcases Nat.lt_trichotomy i position with hlt | rfl | hgt
  · exact absurd hother (hearlier i hlt rest)
  · exact (hfirst rest hother fun hsame => hne (hsame ▸ rfl)).below hchild
  · exact value.before_of_lt hgt way rest

/-- There is only one first node. -/
lemma IsFirst.unique {way way' : List Nat} (h : value.IsFirst ways way)
    (h' : value.IsFirst ways way') : way = way' := by
  by_contra hne
  have hlt : way < way' := (h.2 way' h'.1 (Ne.symm hne)).lt
  have hgt : way' < way := (h'.2 way h.1 hne).lt
  exact List.lt_asymm hlt hgt

end TypedAttributes.Wire.Value
