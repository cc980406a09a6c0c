/-
# Reports that tell of each case once

A traversal collects findings, each about one case out of a collection of cases that is described
without the traversal.  That it misses no case and tells of none twice is said by `EachOnce`: there
is a list of the cases, without repetition and with all of them in it, that goes with the list of
findings item by item.

Traversals concatenate what they find in the parts of a value, so the lemmas below say how reports
on parts are put together.  The one for a whole list of parts is `EachOnce.flatten`; there the cases
are sorted into the parts by a number.
-/
import Mathlib.Data.List.Forall2
import Mathlib.Data.List.Nodup

namespace TypedAttributes

variable {κ δ ι : Type}

/-- The findings tell of each case once: of every case of which there is anything to tell, and of
none twice. -/
def EachOnce (tells : κ → δ → Prop) (found : List δ) : Prop :=
  ∃ cases : List κ, cases.Nodup ∧ (∀ case, case ∈ cases ↔ ∃ finding, tells case finding) ∧
    List.Forall₂ tells cases found

namespace EachOnce

variable {tells tells' : κ → δ → Prop} {found found' : List δ}

lemma congr (h : EachOnce tells found)
    (hsame : ∀ case finding, tells case finding ↔ tells' case finding) : EachOnce tells' found := by
  obtain rfl : tells = tells' := funext₂ fun case finding => propext (hsame case finding)
  exact h

/-- Every finding tells of some case. -/
lemma exists_of_mem (h : EachOnce tells found) {finding : δ} (hmem : finding ∈ found) :
    ∃ case, tells case finding := by
  obtain ⟨cases, -, -, hfound⟩ := h
  obtain ⟨n, hn, rfl⟩ := List.mem_iff_getElem.1 hmem
  have hcases : n < cases.length := hfound.length_eq ▸ hn
  exact ⟨cases[n], hfound.get hcases hn⟩

/-- Nothing is found exactly when there is nothing to tell. -/
lemma eq_nil_iff (h : EachOnce tells found) :
    found = [] ↔ ∀ case finding, ¬ tells case finding := by
  obtain ⟨cases, -, hmem, hfound⟩ := h
  constructor
  · rintro rfl case finding htells
    have hcase := (hmem case).2 ⟨finding, htells⟩
    rw [List.forall₂_nil_right_iff.1 hfound] at hcase
    cases hcase
  · intro hnone
    rcases hfound with _ | ⟨htells, -⟩
    · rfl
    · exact absurd htells (hnone _ _)

lemma nil (h : ∀ case finding, ¬ tells case finding) : EachOnce tells [] :=
  ⟨[], .nil, fun case => ⟨fun hmem => absurd hmem (by simp),
    fun ⟨finding, htells⟩ => absurd htells (h case finding)⟩, .nil⟩

lemma single (case : κ) {finding : δ} (h : tells case finding)
    (honly : ∀ other finding, tells other finding → other = case) : EachOnce tells [finding] := by
  refine ⟨[case], List.nodup_singleton case, fun other => ?_, .cons h .nil⟩
  rw [List.mem_singleton]
  constructor
  · rintro rfl
    exact ⟨finding, h⟩
  · rintro ⟨_, hother⟩
    exact honly other _ hother

/-- Reports on different cases, one after the other, are a report on all of them. -/
lemma append (h : EachOnce tells found) (h' : EachOnce tells' found')
    (hdisjoint : ∀ case finding finding', tells case finding → ¬ tells' case finding') :
    EachOnce (fun case finding => tells case finding ∨ tells' case finding) (found ++ found') := by
  obtain ⟨cases, hnodup, hmem, hfound⟩ := h
  obtain ⟨cases', hnodup', hmem', hfound'⟩ := h'
  refine ⟨cases ++ cases', ?_, fun case => ?_, ?_⟩
  · refine hnodup.append hnodup' fun case hcase hcase' => ?_
    obtain ⟨finding, htells⟩ := (hmem case).1 hcase
    obtain ⟨finding', htells'⟩ := (hmem' case).1 hcase'
    exact hdisjoint case finding finding' htells htells'
  · rw [List.mem_append, hmem, hmem', ← exists_or]
  · exact List.rel_append (hfound.imp fun _ _ => Or.inl) (hfound'.imp fun _ _ => Or.inr)

/-- Cases may be named differently. -/
lemma rename {f : κ → ι} (hf : Function.Injective f) (h : EachOnce tells found) :
    EachOnce (fun case finding => ∃ old, case = f old ∧ tells old finding) found := by
  obtain ⟨cases, hnodup, hmem, hfound⟩ := h
  refine ⟨cases.map f, hnodup.map hf, fun case => ?_, ?_⟩
  · rw [List.mem_map]
    constructor
    · rintro ⟨old, hold, rfl⟩
      obtain ⟨finding, htells⟩ := (hmem old).1 hold
      exact ⟨finding, old, rfl, htells⟩
    · rintro ⟨finding, old, rfl, htells⟩
      exact ⟨old, (hmem old).2 ⟨finding, htells⟩, rfl⟩
  · rw [List.forall₂_map_left_iff]
    exact hfound.imp fun old _ htells => ⟨old, rfl, htells⟩

/-- A list of reports is a report on all their cases, if the `n`-th tells of the cases with the
number `n` and no case has a greater number than there are reports. -/
lemma flatten (number : κ → Nat) (tells : κ → δ → Prop) {reports : List (List δ)}
    (h : ∀ n report, reports[n]? = some report →
      EachOnce (fun case finding => number case = n ∧ tells case finding) report)
    (hnumber : ∀ case finding, tells case finding → number case < reports.length) :
    EachOnce tells reports.flatten := by
  induction reports generalizing number tells with
  | nil => exact .nil fun case finding htells => absurd (hnumber case finding htells) (by simp)
  | cons report reports ih =>
    have hfirst := h 0 report rfl
    -- the cases of the other reports, counted from the second one
    have hrest :
        EachOnce (fun case finding => number case ≠ 0 ∧ tells case finding) reports.flatten := by
      refine ih (fun case => number case - 1) _ (fun n other hother => ?_)
        fun case finding htells => ?_
      · refine (h (n + 1) other hother).congr fun case finding => ?_
        rw [← and_assoc]
        exact and_congr_left fun _ => by omega
      · have := hnumber case finding htells.2
        rw [List.length_cons] at this
        omega
    rw [List.flatten_cons]
    refine (hfirst.append hrest fun case _ _ hzero hne => hne.1 hzero.1).congr
      fun case finding => ?_
    rw [← or_and_right]
    exact and_iff_right (Decidable.em _)

end EachOnce

end TypedAttributes
