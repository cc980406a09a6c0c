/-
# Putting entries in the order of first occurrence

`Keyed.put` sets the value of a key where the key is, or at the end.  So no key is ever there twice,
and entries whose keys are distinct are kept as they stand.  Of entries that are put one after
another the first with a key decides where the key stands, and the last with it decides what it
stands for.
-/
import Mathlib.Data.Finset.Card
import TypedAttributes.Proofs.KeyOrder

namespace TypedAttributes.Keyed

variable {α : Type}

/-- A key that does not occur yet is put at the end. -/
lemma put_of_not_mem {key : String} {value : α} {entries : List (String × α)}
    (h : key ∉ keys entries) : put key value entries = entries ++ [(key, value)] := by
  induction entries with
  | nil => rfl
  | cons first rest ih =>
    obtain ⟨k, v⟩ := first
    have hk : ¬ k = key := by
      rintro rfl
      exact h List.mem_cons_self
    rw [put, if_neg hk, ih fun hrest => h (List.mem_cons_of_mem k hrest)]
    rfl

lemma keys_put_of_mem {key : String} {value : α} {entries : List (String × α)}
    (h : key ∈ keys entries) : keys (put key value entries) = keys entries := by
  induction entries with
  | nil => cases h
  | cons first rest ih =>
    obtain ⟨k, v⟩ := first
    by_cases hk : k = key
    · rw [put, if_pos hk]
      rfl
    · have hrest : key ∈ keys rest := (List.mem_cons.1 h).resolve_left fun heq => hk heq.symm
      rw [put, if_neg hk]
      exact congrArg (k :: ·) (ih hrest)

lemma distinct_put {key : String} {value : α} {entries : List (String × α)} (h : Distinct entries) :
    Distinct (put key value entries) := by
  by_cases hkey : key ∈ keys entries
  · rwa [Distinct, keys_put_of_mem hkey]
  · rw [put_of_not_mem hkey, Distinct, keys, List.map_append, List.pairwise_append]
    refine ⟨h, List.pairwise_singleton _ _, fun k hk other hother => ?_⟩
    obtain rfl := List.mem_singleton.1 hother
    rintro rfl
    exact hkey hk

lemma mem_of_mem_put {key : String} {value : α} {entries : List (String × α)} {entry : String × α}
    (h : entry ∈ put key value entries) : entry = (key, value) ∨ entry ∈ entries := by
  induction entries with
  | nil => exact Or.inl (List.mem_singleton.1 h)
  | cons first rest ih =>
    obtain ⟨k, v⟩ := first
    rw [put] at h
    split at h
    next hk =>
      subst hk
      rcases List.mem_cons.1 h with rfl | h
      · exact Or.inl rfl
      · exact Or.inr (List.mem_cons_of_mem _ h)
    next =>
      rcases List.mem_cons.1 h with rfl | h
      · exact Or.inr List.mem_cons_self
      · exact (ih h).imp_right (List.mem_cons_of_mem _)

/-- The entries with the given ones put to them one after another. -/
def putAll (built entries : List (String × α)) : List (String × α) :=
  entries.foldl (fun built entry => put entry.1 entry.2 built) built

lemma distinct_putAll {built entries : List (String × α)} (h : Distinct built) :
    Distinct (putAll built entries) := by
  induction entries generalizing built with
  | nil => exact h
  | cons entry rest ih => exact ih (distinct_put h)

lemma mem_of_mem_putAll {built entries : List (String × α)} {entry : String × α}
    (h : entry ∈ putAll built entries) : entry ∈ entries ∨ entry ∈ built := by
  induction entries generalizing built with
  | nil => exact Or.inr h
  | cons first rest ih =>
    rcases ih h with hrest | hput
    · exact Or.inl (List.mem_cons_of_mem _ hrest)
    · rcases mem_of_mem_put hput with rfl | hbuilt
      · exact Or.inl List.mem_cons_self
      · exact Or.inr hbuilt

lemma keys_put (key : String) (value : α) (entries : List (String × α)) :
    keys (put key value entries) =
      if key ∈ keys entries then keys entries else keys entries ++ [key] := by
  split
  next h => exact keys_put_of_mem h
  next h => rw [put_of_not_mem h, keys, List.map_append, List.map_singleton, keys]

/-- The keys stand in the order of their first occurrence. -/
lemma keys_putAll_nil (entries : List (String × α)) :
    keys (putAll [] entries) = (keys entries).eraseDups := by
  induction entries using List.reverseRecOn with
  | nil => rfl
  | append_singleton entries entry ih =>
    have hput : putAll [] (entries ++ [entry]) = put entry.1 entry.2 (putAll [] entries) := by
      simp [putAll]
    have hkeys : keys (entries ++ [entry]) = keys entries ++ [entry.1] := by simp [keys]
    rw [hput, keys_put, ih, hkeys, List.eraseDups_append]
    by_cases hmem : entry.1 ∈ keys entries <;> simp [hmem, List.removeAll, List.eraseDups_cons]

/-- There are as many entries as there are different keys. -/
lemma length_putAll_nil (entries : List (String × α)) :
    (putAll [] entries).length = (keys entries).toFinset.card := by
  have hdistinct : (keys (putAll [] entries)).Nodup := distinct_putAll .nil
  have hsame : (keys (putAll [] entries)).toFinset = (keys entries).toFinset := by
    ext key
    simp [keys_putAll_nil]
  rw [← hsame, List.toFinset_card_of_nodup hdistinct, keys, List.length_map]

lemma lookup_cons_eq (key : String) (entry : String × α) (entries : List (String × α)) :
    (entry :: entries).lookup key = if key = entry.1 then some entry.2 else entries.lookup key := by
  rw [List.lookup_cons]
  by_cases h : key = entry.1
  · simp [h]
  · simp [h, beq_eq_false_iff_ne.2 h]

lemma lookup_put (key k : String) (value : α) (entries : List (String × α)) :
    (put key value entries).lookup k = if k = key then some value else entries.lookup k := by
  induction entries with
  | nil => rw [put, lookup_cons_eq]
  | cons first rest ih =>
    obtain ⟨j, v⟩ := first
    rw [put]
    split
    next hj =>
      subst hj
      rw [lookup_cons_eq, lookup_cons_eq]
      grind
    next hj =>
      rw [lookup_cons_eq, lookup_cons_eq, ih]
      grind

/-- A key stands for what it stands for in the last entry that has it. -/
lemma lookup_putAll (built entries : List (String × α)) (key : String) :
    (putAll built entries).lookup key = (entries.reverse.lookup key).or (built.lookup key) := by
  induction entries generalizing built with
  | nil => rfl
  | cons entry rest ih =>
    have hstep : putAll built (entry :: rest) = putAll (put entry.1 entry.2 built) rest := rfl
    rw [hstep, ih, lookup_put, List.reverse_cons, List.lookup_append, Option.or_assoc,
      lookup_cons_eq]
    by_cases h : key = entry.1 <;> simp [h]

lemma distinct_putAll_nil (entries : List (String × α)) : Distinct (putAll [] entries) :=
  distinct_putAll .nil

lemma lookup_putAll_nil (entries : List (String × α)) (key : String) :
    (putAll [] entries).lookup key = entries.reverse.lookup key := by
  simp [lookup_putAll]

/-- Entries with distinct keys, none of which occurs yet, are put at the end as they stand. -/
lemma putAll_of_distinct {built entries : List (String × α)} (h : Distinct (built ++ entries)) :
    putAll built entries = built ++ entries := by
  induction entries generalizing built with
  | nil => rw [List.append_nil, putAll, List.foldl_nil]
  | cons entry rest ih =>
    obtain ⟨key, value⟩ := entry
    have hkey : key ∉ keys built := by
      intro hmem
      rw [Distinct, keys, List.map_append, List.pairwise_append] at h
      exact h.2.2 key hmem key List.mem_cons_self rfl
    have hassoc : built ++ [(key, value)] ++ rest = built ++ (key, value) :: rest := by simp
    rw [putAll, List.foldl_cons, put_of_not_mem hkey]
    exact (ih (hassoc ▸ h)).trans hassoc

end TypedAttributes.Keyed
