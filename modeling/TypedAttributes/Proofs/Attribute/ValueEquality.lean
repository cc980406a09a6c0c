/-
# When typed values are equal

Equality of collections is defined by comparing lists of elements in three ways.  Here each is
reduced to an agreement item by item: for lists with the elements as they stand, for sets and maps
after a rearrangement.  A map whose keys are distinct can be matched with another in one way only,
so that any rearrangement in which keys and values agree is found.
-/
import TypedAttributes.Attribute.Equality
import TypedAttributes.Proofs.KeyOrder
import TypedAttributes.Proofs.Matching
import TypedAttributes.Proofs.Attribute.Tree

namespace TypedAttributes.Attribute

variable {ρ : Type}

lemma itemsEqual_iff {xs ys : List (Value ρ)} :
    itemsEqual xs ys = true ↔ List.Forall₂ (fun x y => x.equal y = true) xs ys := by
  induction xs generalizing ys with
  | nil => cases ys <;> simp [itemsEqual]
  | cons x xs ih => cases ys <;> simp [itemsEqual, ih]

lemma membersEqual_of_forall₂ {xs ys : List (Value ρ)}
    (h : List.Forall₂ (fun x y => x.equal y = true) xs ys) : membersEqual xs ys = true := by
  rw [membersEqual_eq_matched]
  exact matched_of_forall₂ h

/-- Entries are matched with others of distinct keys when keys and values agree after a
rearrangement. -/
lemma entriesEqual_of_perm {xs ys zs : List (String × Value ρ)} (hdistinct : Keyed.Distinct ys)
    (hperm : zs.Perm ys)
    (h : List.Forall₂ (fun x z => x.1 = z.1 ∧ x.2.equal z.2 = true) xs zs) :
    entriesEqual xs ys = true := by
  rw [entriesEqual_eq_matched]
  have hkey : ∀ a b : String × Value ρ, entryEqual a b = true → a.1 = b.1 := by
    intro a b hab
    rw [entryEqual, Bool.and_eq_true, beq_iff_eq] at hab
    exact hab.1
  refine matched_of_perm ?_ hperm (h.imp fun x z hxz => by simp [entryEqual, hxz])
  intro a _ b _ y hy z hz hay haz hby
  -- an entry has one partner at most, the one with its key
  rwa [← Keyed.eq_of_distinct hdistinct hy hz ((hkey a y hay).symm.trans (hkey a z haz))]

/-- Matched entries agree in keys and values after a rearrangement. -/
lemma exists_perm_of_entriesEqual {xs ys : List (String × Value ρ)}
    (h : entriesEqual xs ys = true) :
    ∃ zs, zs.Perm ys ∧ List.Forall₂ (fun x z => x.1 = z.1 ∧ x.2.equal z.2 = true) xs zs := by
  rw [entriesEqual_eq_matched] at h
  obtain ⟨zs, hperm, hzs⟩ := exists_perm_of_matched h
  exact ⟨zs, hperm, hzs.imp fun x z hxz => by simpa [entryEqual] using hxz⟩

/-- Entries with distinct keys are matched exactly when they have equal values, or none, under every
key. -/
lemma entriesEqual_iff_lookup {xs ys : List (String × Value ρ)} (hxs : Keyed.Distinct xs)
    (hys : Keyed.Distinct ys) :
    entriesEqual xs ys = true ↔
      ∀ key, Option.Rel (fun x y => x.equal y = true) (xs.lookup key) (ys.lookup key) := by
  constructor
  · intro h key
    obtain ⟨zs, hperm, hzs⟩ := exists_perm_of_entriesEqual h
    cases hx : xs.lookup key with
    | some x =>
      obtain ⟨z, hz, hkey, hequal⟩ :=
        exists_of_mem_right hzs.flip ((Keyed.lookup_eq_some_iff hxs).1 hx)
      obtain rfl : key = z.1 := hkey
      rw [(Keyed.lookup_eq_some_iff hys).2 (hperm.subset hz)]
      exact .some hequal
    | none =>
      cases hy : ys.lookup key with
      | none => exact .none
      | some y =>
        have hmem := hperm.symm.subset ((Keyed.lookup_eq_some_iff hys).1 hy)
        obtain ⟨x, hxmem, hkey, -⟩ := exists_of_mem_right hzs hmem
        obtain rfl : x.1 = key := hkey
        rw [(Keyed.lookup_eq_some_iff hxs).2 hxmem] at hx
        cases hx
  · intro h
    have hentry : ∀ x ∈ xs, ∃ z, z ∈ ys ∧ x.1 = z.1 ∧ x.2.equal z.2 = true := by
      intro x hx
      have hrel := h x.1
      rw [(Keyed.lookup_eq_some_iff hxs).2 hx] at hrel
      generalize hy : ys.lookup x.1 = found at hrel
      cases hrel with
      | some hequal => exact ⟨_, (Keyed.lookup_eq_some_iff hys).1 hy, rfl, hequal⟩
    obtain ⟨zs, hzs⟩ := exists_forall₂ hentry
    have hkeys : Keyed.keys xs = Keyed.keys zs :=
      Keyed.keys_eq_iff.2 (hzs.imp fun _ _ hxz => hxz.2.1)
    have hdistinct : Keyed.Distinct zs := by rwa [Keyed.Distinct, ← hkeys]
    refine entriesEqual_of_perm hys (Keyed.perm_of_distinct hdistinct hys ?_ ?_)
      (hzs.imp fun _ _ hxz => hxz.2)
    · intro z hz
      obtain ⟨x, -, hmem, -⟩ := exists_of_mem_right hzs hz
      exact hmem
    · -- a key of `ys` has a value in `xs` as well, or the values under it would not be related
      intro key hkey
      obtain ⟨y, hy, rfl⟩ := List.mem_map.1 hkey
      have hrel := h y.1
      rw [(Keyed.lookup_eq_some_iff hys).2 hy] at hrel
      generalize hx : xs.lookup y.1 = found at hrel
      cases hrel with
      | some _ =>
        rw [← hkeys]
        exact List.mem_map.2 ⟨_, (Keyed.lookup_eq_some_iff hxs).1 hx, rfl⟩

namespace Value

/-- Without `nan` a scalar equals itself. -/
lemma equal_scalar_self {kind : Scalar.Kind} {state : State kind.Content}
    (h : (scalar kind state : Value ρ).nanFree = true) :
    (scalar kind state : Value ρ).equal (scalar kind state) = true := by
  have hnode := (all_iff.1 h).1
  rw [equal, Bool.and_eq_true, beq_self_eq_true]
  refine ⟨rfl, ?_⟩
  rcases state with _ | _ | content
  · rfl
  · rfl
  · cases kind with
    | string => simp [State.map, State.equal, Scalar.Kind.wrap, Scalar.equal]
    | number =>
      simpa [State.map, State.equal, Scalar.Kind.wrap, Scalar.equal, Double.equal_self] using hnode
    | bool => simp [State.map, State.equal, Scalar.Kind.wrap, Scalar.equal]

lemma equal_nullCollection (shape : Shape) (a b : Option (Ty ρ)) :
    (nullCollection shape a).equal (nullCollection shape b) = Ty.elementsEqual a b := by
  cases shape <;> rfl

lemma equal_unknownCollection (shape : Shape) (a b : Option (Ty ρ)) :
    (unknownCollection shape a).equal (unknownCollection shape b) = Ty.elementsEqual a b := by
  cases shape <;> rfl

lemma equal_list_known {a b : Option (Ty ρ)} {xs ys : List (Value ρ)} :
    (list a (.known xs)).equal (list b (.known ys)) =
      (Ty.elementsEqual a b && itemsEqual xs ys) := rfl

lemma equal_map_known {a b : Option (Ty ρ)} {xs ys : List (String × Value ρ)} :
    (map a (.known xs)).equal (map b (.known ys)) =
      (Ty.elementsEqual a b && entriesEqual xs ys) := rfl

lemma equal_set_known {a b : Option (Ty ρ)} {xs ys : List (Value ρ)} :
    (set a (.known xs)).equal (set b (.known ys)) =
      (Ty.elementsEqual a b && membersEqual xs ys) := rfl

end Value

end TypedAttributes.Attribute
