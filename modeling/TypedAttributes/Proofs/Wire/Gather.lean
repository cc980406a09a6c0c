/-
# Gathering from fully known children

Validators pass over children that are not fully known.  `gather` puts together what there is to say
about the others, in the order of the children and with their positions.
-/
import Mathlib.Data.List.Basic
import TypedAttributes.Proofs.Wire.Tree

namespace TypedAttributes.Wire

/-- What is collected from the fully known children of a value, in their order. -/
def gather {α : Type} (children : List Value) (report : Nat → Value → List α) : List α :=
  children.zipIdx.flatMap fun place => if place.1.isFullyKnown then report place.2 place.1 else []

variable {α β : Type} {children : List Value} {report : Nat → Value → List α}

lemma flatten_mapIdx_eq_gather :
    (children.mapIdx fun i child => if child.isFullyKnown then report i child else []).flatten =
      gather children report := by
  rw [List.mapIdx_eq_zipIdx_map, ← List.flatMap_def]
  rfl

lemma gather_congr {report' : Nat → Value → List α}
    (h : ∀ i child, children[i]? = some child → report i child = report' i child) :
    gather children report = gather children report' := by
  refine List.flatMap_congr fun place hplace => ?_
  rw [h place.2 place.1 (List.mem_zipIdx_iff_getElem?.1 hplace)]

lemma flatMap_gather (f : α → List β) :
    (gather children report).flatMap f =
      gather children fun i child => (report i child).flatMap f := by
  rw [gather, List.flatMap_assoc]
  refine List.flatMap_congr fun place _ => ?_
  split <;> rfl

lemma filterMap_gather (f : α → Option β) :
    (gather children report).filterMap f =
      gather children fun i child => (report i child).filterMap f := by
  rw [gather, List.filterMap_flatMap]
  refine List.flatMap_congr fun place _ => ?_
  split <;> rfl

lemma mem_gather {x : α} : x ∈ gather children report ↔
    ∃ i child, children[i]? = some child ∧ child.isFullyKnown = true ∧ x ∈ report i child := by
  rw [gather, List.mem_flatMap]
  constructor
  · rintro ⟨place, hplace, hx⟩
    split at hx
    next hknown => exact ⟨_, _, List.mem_zipIdx_iff_getElem?.1 hplace, hknown, hx⟩
    next => cases hx
  · rintro ⟨i, child, hchild, hknown, hx⟩
    exact ⟨(child, i), List.mem_zipIdx_iff_getElem?.2 hchild, by rwa [if_pos hknown]⟩

/-- What is collected is in order if each report is, and reports are in the order of the
children. -/
lemma pairwise_gather {R : α → α → Prop}
    (hreport : ∀ i child, children[i]? = some child → (report i child).Pairwise R)
    (hacross : ∀ i j child later, i < j → children[i]? = some child → children[j]? = some later →
      ∀ x ∈ report i child, ∀ y ∈ report j later, R x y) : (gather children report).Pairwise R := by
  refine List.pairwise_flatMap.2 ⟨fun place hplace => ?_, ?_⟩
  · split
    · exact hreport _ _ (List.mem_zipIdx_iff_getElem?.1 hplace)
    · exact .nil
  · refine List.pairwise_iff_getElem.2 fun i j hi hj hij x hx y hy => ?_
    rw [List.getElem_zipIdx, Nat.zero_add] at hx hy
    split at hx
    · split at hy
      · rw [List.length_zipIdx] at hi hj
        exact hacross i j _ _ hij (List.getElem?_eq_getElem hi)
          (List.getElem?_eq_getElem hj) x hx y hy
      · cases hy
    · cases hx

end TypedAttributes.Wire
