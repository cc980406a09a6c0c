/-
# Where members of sets occur again

A set may hold a member more than once.  A `Repetition` names one such pair of positions, by the way
down to the set and the two positions in it; `Value.RepeatsAt` says which of these there are in a
value and which member it is that occurs again.  Only fully known members count, and of the nodes
below the value only those in its fully known children.

It is said here by looking up nodes, without any traversal.  The two lemmas on `RepeatsAt` split
what there is in a value into what is in its own members, if it is a set, and what is in its
children.
-/
import TypedAttributes.Wire.Equality
import TypedAttributes.Proofs.Wire.Tree

namespace TypedAttributes.Wire

/-- The place of a pair of members of a set: the way to the set, as positions among children, and
the positions of the two members in it. -/
structure Repetition where
  set : List Nat
  first : Nat
  again : Nat
deriving DecidableEq

namespace Value

/-- The node to which a way down leads, step by step to the child at a position. -/
def node? : List Nat → Value → Option Value
  | [], value => some value
  | position :: rest, value => value.children[position]?.bind (node? rest)

/-- Whether a way stops at the value or leads to or through a fully known child of it. -/
def Reaches (value : Value) (way : List Nat) : Prop :=
  way = [] ∨ ∃ position rest child, way = position :: rest ∧
    value.children[position]? = some child ∧ child.isFullyKnown = true

/-- Whether at a place in a value there is a fully known member of a known set that is equal to a
fully known member before it, in a set that is the value or lies in a fully known child of it. -/
def RepeatsAt (value : Value) (place : Repetition) (again : Value) : Prop :=
  value.Reaches place.set ∧ ∃ node members first,
    value.node? place.set = some node ∧ node.payload? = some (.set members) ∧
      place.first < place.again ∧ members[place.first]? = some first ∧
      members[place.again]? = some again ∧ first.isFullyKnown = true ∧ again.isFullyKnown = true ∧
      again.equal first = true

/-- Every way to a node of a fully known value leads through a fully known child. -/
lemma reaches_of_isFullyKnown {value node : Value} {way : List Nat} (h : value.isFullyKnown = true)
    (hnode : value.node? way = some node) : value.Reaches way := by
  cases way with
  | nil => exact Or.inl rfl
  | cons position rest =>
    obtain ⟨child, hchild, -⟩ := Option.bind_eq_some_iff.1 hnode
    exact Or.inr ⟨position, rest, child, rfl, hchild,
      (isFullyKnown_iff.1 h).2 child (List.mem_of_getElem? hchild)⟩

/-- What is repeated in the members of the value itself. -/
lemma repeatsAt_root_iff {value again : Value} {i j : Nat} :
    value.RepeatsAt ⟨[], i, j⟩ again ↔
      ∃ members first, value.payload? = some (.set members) ∧ i < j ∧
      members[i]? = some first ∧ members[j]? = some again ∧
      first.isFullyKnown = true ∧ again.isFullyKnown = true ∧ again.equal first = true := by
  constructor
  · rintro ⟨-, node, members, first, ⟨⟩, h⟩
    exact ⟨members, first, h⟩
  · rintro ⟨members, first, h⟩
    exact ⟨Or.inl rfl, value, members, first, rfl, h⟩

/-- What is repeated below is what is repeated in the fully known children. -/
lemma repeatsAt_below_iff {value again : Value} {position : Nat} {rest : List Nat} {i j : Nat} :
    value.RepeatsAt ⟨position :: rest, i, j⟩ again ↔
      ∃ child, value.children[position]? = some child ∧ child.isFullyKnown = true ∧
        child.RepeatsAt ⟨rest, i, j⟩ again := by
  constructor
  · rintro ⟨hreach, node, members, first, hnode, h⟩
    obtain ⟨_, _, child, heq, hchild, hknown⟩ := hreach.resolve_left (List.cons_ne_nil _ _)
    obtain ⟨rfl, rfl⟩ := List.cons.inj heq
    have hbelow : child.node? rest = some node := by simpa [node?, hchild] using hnode
    exact ⟨child, hchild, hknown, reaches_of_isFullyKnown hknown hbelow, node, members, first,
      hbelow, h⟩
  · rintro ⟨child, hchild, hknown, -, node, members, first, hnode, h⟩
    refine ⟨Or.inr ⟨position, rest, child, rfl, hchild, hknown⟩, node, members, first, ?_, h⟩
    simpa [node?, hchild] using hnode

/-- What repeats a given member of the value itself is found among the members after it. -/
lemma repeatsAt_first_iff {value first again : Value} {members : List Value} {place : Repetition}
    {i : Nat} (hpayload : value.payload? = some (.set members))
    (hfirst : members[i]? = some first) (hknown : first.isFullyKnown = true) :
    (place.set = [] ∧ place.first = i) ∧ value.RepeatsAt place again ↔
      ∃ k, place = ⟨[], i, i + 1 + k⟩ ∧ (members.drop (i + 1))[k]? = some again ∧
        again.isFullyKnown = true ∧ again.equal first = true := by
  obtain ⟨way, i', j⟩ := place
  constructor
  · rintro ⟨⟨rfl, rfl⟩, hrepeats⟩
    obtain ⟨members', first', hpayload', hlt, hfirst', hagain, -, h⟩ :=
      repeatsAt_root_iff.1 hrepeats
    obtain rfl := Payload.set.inj (Option.some.inj (hpayload.symm.trans hpayload'))
    obtain rfl := Option.some.inj (hfirst.symm.trans hfirst')
    obtain ⟨k, rfl⟩ := Nat.exists_eq_add_of_lt hlt
    refine ⟨k, by rw [Nat.add_right_comm], ?_, h⟩
    rwa [List.getElem?_drop, Nat.add_right_comm]
  · rintro ⟨k, heq, hagain, h⟩
    cases heq
    rw [List.getElem?_drop] at hagain
    exact ⟨⟨rfl, rfl⟩, repeatsAt_root_iff.2
      ⟨members, first, hpayload, by omega, hfirst, hagain, hknown, h⟩⟩

/-- In a value that is no known collection nothing is repeated. -/
lemma not_repeatsAt_of_not_isCollection {value again : Value} {place : Repetition}
    (h : value.isCollection = false) : ¬ value.RepeatsAt place again := by
  have hchildren := children_of_not_isCollection h
  obtain ⟨_ | ⟨position, rest⟩, i, j⟩ := place
  · rw [repeatsAt_root_iff]
    rintro ⟨members, first, hpayload, -, hfirst, -⟩
    rw [children_of_payload? hpayload, Payload.children_set] at hchildren
    rw [hchildren] at hfirst
    cases hfirst
  · rw [repeatsAt_below_iff]
    rintro ⟨child, hchild, -⟩
    rw [hchildren] at hchild
    cases hchild

end Value

end TypedAttributes.Wire
