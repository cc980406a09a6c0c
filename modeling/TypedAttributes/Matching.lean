/-
# Matching the members of two lists

Two unordered collections are compared by giving each member of the first, in turn, the first member
of the second that is equal to it and not yet given away.
-/
namespace TypedAttributes

universe u v

/-- The list without its first element that is accepted, if there is one. -/
def takeFirst? {α : Type u} (accepts : α → Bool) : List α → Option (List α)
  | [] => none
  | y :: ys => if accepts y then some ys else (takeFirst? accepts ys).map (y :: ·)

/-- Whether giving each member of the first list the first free member of the second that `same`
accepts uses up both lists. -/
def matched {α : Type u} {β : Type v} (same : α → β → Bool) : List α → List β → Bool
  | [], ys => ys.isEmpty
  | x :: xs, ys => (takeFirst? (same x) ys).any fun rest => matched same xs rest

/-- One element is taken out, and it is an accepted one. -/
theorem takeFirst?_eq_some {α : Type u} {accepts : α → Bool} {ys rest : List α}
    (h : takeFirst? accepts ys = some rest) :
    ∃ before y after, accepts y = true ∧ ys = before ++ y :: after ∧ rest = before ++ after := by
  induction ys generalizing rest with
  | nil => simp [takeFirst?] at h
  | cons y ys ih =>
    unfold takeFirst? at h
    split at h
    · exact ⟨[], y, ys, by assumption, rfl, by simpa using h.symm⟩
    · obtain ⟨tail, ht, rfl⟩ := Option.map_eq_some_iff.1 h
      obtain ⟨before, z, after, hz, rfl, rfl⟩ := ih ht
      exact ⟨y :: before, z, after, hz, rfl, rfl⟩

/-- Nothing is taken out exactly when nothing is accepted. -/
theorem takeFirst?_eq_none_iff {α : Type u} {accepts : α → Bool} {ys : List α} :
    takeFirst? accepts ys = none ↔ ∀ y ∈ ys, accepts y = false := by
  induction ys with
  | nil => simp [takeFirst?]
  | cons y ys ih => by_cases h : accepts y = true <;> simp [takeFirst?, h, ih]

end TypedAttributes
