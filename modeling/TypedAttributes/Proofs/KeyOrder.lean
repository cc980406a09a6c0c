/-
# Putting entries in key order

`Keyed.ofEntries` sorts entries by inserting them one by one.  The result is in ascending order and
holds nothing but entries that were given.  Entries that are in ascending order already stay as they
are, and entries whose keys are distinct are only rearranged: none is lost, and none is merged with
another.
-/
import Mathlib.Data.List.Perm.Basic
import TypedAttributes.Proofs.Traversal

namespace TypedAttributes.Keyed

variable {α β : Type}

lemma ascending_cons {entry : String × α} {entries : List (String × α)} :
    Ascending (entry :: entries) ↔ (∀ key ∈ keys entries, entry.1 < key) ∧ Ascending entries := by
  simp [Ascending, keys]

lemma distinct_cons {entry : String × α} {entries : List (String × α)} :
    Distinct (entry :: entries) ↔ entry.1 ∉ keys entries ∧ Distinct entries := by
  rw [Distinct, keys, List.map_cons, List.pairwise_cons]
  refine and_congr ⟨fun h hmem => h _ hmem rfl, ?_⟩ Iff.rfl
  rintro h key hkey rfl
  exact h hkey

lemma distinct_of_ascending {entries : List (String × α)} (h : Ascending entries) :
    Distinct entries := by
  refine List.Pairwise.imp ?_ h
  rintro key _ hlt rfl
  exact String.lt_irrefl key hlt

/-- Inserting an entry whose key comes after all others puts it at the end. -/
lemma insert_of_forall_lt {key : String} {value : α} {entries : List (String × α)}
    (h : ∀ k ∈ keys entries, k < key) : insert key value entries = entries ++ [(key, value)] := by
  induction entries with
  | nil => rfl
  | cons entry rest ih =>
    obtain ⟨k, v⟩ := entry
    have hk : k < key := h k (by simp [keys])
    have hne : key ≠ k := fun heq => String.lt_irrefl _ (heq ▸ hk)
    rw [insert, if_neg (String.lt_asymm hk), if_neg hne,
      ih fun j hj => h j (List.mem_cons_of_mem _ hj)]
    rfl

/-- Inserting an entry with a new key adds it and changes nothing else. -/
lemma insert_perm {key : String} {value : α} {entries : List (String × α)}
    (h : key ∉ keys entries) : (insert key value entries).Perm ((key, value) :: entries) := by
  induction entries with
  | nil => exact .refl _
  | cons entry rest ih =>
    obtain ⟨k, v⟩ := entry
    have hne : key ≠ k := fun heq => h (by simp [keys, heq])
    have hrest : key ∉ keys rest := fun hmem => h (List.mem_cons_of_mem _ hmem)
    rw [insert, if_neg hne]
    split
    · exact .refl _
    · exact ((ih hrest).cons (k, v)).trans (.swap _ _ _)

/-- Entries that ascend, put in order behind entries that come before them, are appended. -/
lemma foldl_insert_of_ascending (built entries : List (String × α))
    (hlt : ∀ j ∈ keys built, ∀ k ∈ keys entries, j < k) (h : Ascending entries) :
    entries.foldl (fun built entry => insert entry.1 entry.2 built) built = built ++ entries := by
  induction entries generalizing built with
  | nil => simp
  | cons entry rest ih =>
    obtain ⟨hfirst, hrest⟩ := ascending_cons.1 h
    -- all keys so far are less than that of `entry`, which is therefore put behind them
    have hinsert : insert entry.1 entry.2 built = built ++ [entry] :=
      insert_of_forall_lt fun j hj => hlt j hj entry.1 (by simp [keys])
    rw [List.foldl_cons, hinsert, ih _ _ hrest, List.append_assoc, List.singleton_append]
    intro j hj k hk
    rcases List.mem_append.1 (by simpa [keys] using hj : j ∈ keys built ++ [entry.1]) with hj | hj
    · exact hlt j hj k (List.mem_cons_of_mem _ hk)
    · rw [List.mem_singleton.1 hj]
      exact hfirst k hk

/-- Entries in ascending order stay as they are. -/
lemma ofEntries_of_ascending {entries : List (String × α)} (h : Ascending entries) :
    ofEntries entries = entries :=
  foldl_insert_of_ascending [] entries (by simp [keys]) h

lemma mem_of_mem_insert {key : String} {value : α} {entries : List (String × α)}
    {entry : String × α} (h : entry ∈ insert key value entries) :
    entry = (key, value) ∨ entry ∈ entries := by
  induction entries with
  | nil => exact Or.inl (List.mem_singleton.1 h)
  | cons first rest ih =>
    rw [insert] at h
    split at h
    · exact List.mem_cons.1 h
    · split at h
      · exact (List.mem_cons.1 h).imp_right (List.mem_cons_of_mem _)
      · rcases List.mem_cons.1 h with rfl | h
        · exact Or.inr (List.mem_cons_self ..)
        · exact (ih h).imp_right (List.mem_cons_of_mem _)

/-- Inserting an entry into entries in ascending order keeps them in order. -/
lemma ascending_insert {key : String} {value : α} {entries : List (String × α)}
    (h : Ascending entries) : Ascending (insert key value entries) := by
  induction entries with
  | nil => simp [insert, Ascending, keys]
  | cons first rest ih =>
    obtain ⟨k, v⟩ := first
    obtain ⟨hfirst, hrest⟩ := ascending_cons.1 h
    rw [insert]
    split
    next hlt =>
      refine ascending_cons.2 ⟨fun j hj => ?_, h⟩
      rcases List.mem_cons.1 hj with rfl | hj
      · exact hlt
      · exact String.lt_trans hlt (hfirst j hj)
    next hnot =>
      split
      next heq => exact ascending_cons.2 ⟨fun j hj => heq ▸ hfirst j hj, hrest⟩
      next hne =>
        have hlt : k < key := Std.lt_of_le_of_ne (String.not_lt.1 hnot) (Ne.symm hne)
        refine ascending_cons.2 ⟨fun j hj => ?_, ih hrest⟩
        obtain ⟨entry, hentry, rfl⟩ := List.mem_map.1 hj
        rcases mem_of_mem_insert hentry with rfl | hentry
        · exact hlt
        · exact hfirst _ (List.mem_map_of_mem hentry)

lemma ascending_ofEntries (entries : List (String × α)) : Ascending (ofEntries entries) :=
  List.foldlRecOn entries _ .nil fun _ hbuilt _ _ => ascending_insert hbuilt

lemma mem_of_mem_ofEntries {entries : List (String × α)} {entry : String × α}
    (h : entry ∈ ofEntries entries) : entry ∈ entries := by
  refine List.foldlRecOn (motive := fun built => entry ∈ built → entry ∈ entries) entries _
    (fun hnil => absurd hnil List.not_mem_nil) (fun built hbuilt first hfirst hmem => ?_) h
  rcases mem_of_mem_insert hmem with rfl | hmem
  · exact hfirst
  · exact hbuilt hmem

/-- Entries in ascending order have only one ascending arrangement. -/
lemma eq_of_perm_of_ascending {xs ys : List (String × α)} (hperm : xs.Perm ys) (hxs : Ascending xs)
    (hys : Ascending ys) : xs = ys := by
  refine List.Perm.eq_of_pairwise ?_ (List.pairwise_map.1 hxs) (List.pairwise_map.1 hys) hperm
  intro x y _ _ hxy hyx
  exact absurd hyx (String.lt_asymm hxy)

lemma foldl_insert_perm (built entries : List (String × α))
    (hnew : ∀ key ∈ keys entries, key ∉ keys built) (h : Distinct entries) :
    (entries.foldl (fun built entry => insert entry.1 entry.2 built) built).Perm
      (entries ++ built) := by
  induction entries generalizing built with
  | nil => exact .refl _
  | cons entry rest ih =>
    obtain ⟨hfirst, hrest⟩ := distinct_cons.1 h
    have hinsert : (insert entry.1 entry.2 built).Perm (entry :: built) :=
      insert_perm (hnew entry.1 (by simp [keys]))
    have hkeys : (keys (insert entry.1 entry.2 built)).Perm (entry.1 :: keys built) :=
      hinsert.map Prod.fst
    rw [List.foldl_cons]
    refine (ih _ ?_ hrest).trans ((hinsert.append_left rest).trans ?_)
    · -- the keys still to come are new, as they differ from that of `entry`
      intro key hkey hmem
      rcases List.mem_cons.1 (hkeys.mem_iff.1 hmem) with rfl | hmem
      · exact hfirst hkey
      · exact hnew key (List.mem_cons_of_mem _ hkey) hmem
    · exact List.perm_middle

/-- Entries with distinct keys are only rearranged. -/
lemma ofEntries_perm {entries : List (String × α)} (h : Distinct entries) :
    (ofEntries entries).Perm entries := by
  have hperm := foldl_insert_perm [] entries (by simp [keys]) h
  rwa [List.append_nil] at hperm

/-- Two entries of a list with distinct keys that have the same key are the same. -/
lemma eq_of_distinct {entries : List (String × α)} (h : Distinct entries) {a b : String × α}
    (ha : a ∈ entries) (hb : b ∈ entries) (hkey : a.1 = b.1) : a = b := by
  induction entries with
  | nil => simp at ha
  | cons entry rest ih =>
    obtain ⟨hfirst, hrest⟩ := distinct_cons.1 h
    rcases List.mem_cons.1 ha with rfl | ha' <;> rcases List.mem_cons.1 hb with rfl | hb'
    · rfl
    · exact absurd (hkey ▸ List.mem_map_of_mem hb') hfirst
    · exact absurd (hkey ▸ List.mem_map_of_mem ha') hfirst
    · exact ih hrest ha' hb'

/-- Where keys are distinct, looking one up finds the entry that has it. -/
lemma lookup_eq_some_iff {entries : List (String × α)} (h : Distinct entries) {key : String}
    {value : α} : entries.lookup key = some value ↔ (key, value) ∈ entries := by
  induction entries with
  | nil => simp
  | cons entry rest ih =>
    obtain ⟨k, v⟩ := entry
    obtain ⟨hfirst, hrest⟩ := distinct_cons.1 h
    rw [List.lookup_cons, List.mem_cons]
    by_cases hkey : key = k
    · subst hkey
      have hnot : (key, value) ∉ rest :=
        fun hmem => hfirst (List.mem_map.2 ⟨(key, value), hmem, rfl⟩)
      simp [hnot, eq_comm]
    · simp [beq_eq_false_iff_ne.2 hkey, hkey, ih hrest]

lemma keys_eq_iff {xs : List (String × α)} {ys : List (String × β)} :
    keys xs = keys ys ↔ List.Forall₂ (fun x y => x.1 = y.1) xs ys := by
  rw [keys, keys, ← List.forall₂_eq_eq_eq, List.forall₂_map_left_iff, List.forall₂_map_right_iff]

/-- Entries with the same keys are related when their values are. -/
lemma forall₂_of_keys_eq {R : α → β → Prop} {xs : List (String × α)} {ys : List (String × β)}
    (hkeys : keys xs = keys ys) (h : List.Forall₂ R (xs.map Prod.snd) (ys.map Prod.snd)) :
    List.Forall₂ (fun x y => x.1 = y.1 ∧ R x.2 y.2) xs ys := by
  rw [List.forall₂_map_left_iff, List.forall₂_map_right_iff] at h
  rw [keys_eq_iff] at hkeys
  induction h with
  | nil => exact .nil
  | cons hvalue _ ih =>
    obtain ⟨hkey, hkeys⟩ := List.forall₂_cons.1 hkeys
    exact .cons ⟨hkey, hvalue⟩ (ih hkeys)

/-- Entries with the same keys and the same values are the same. -/
lemma ext {xs ys : List (String × α)} (hkeys : keys xs = keys ys)
    (hvalues : xs.map Prod.snd = ys.map Prod.snd) : xs = ys := by
  rw [← List.forall₂_eq_eq_eq] at hvalues ⊢
  exact (forall₂_of_keys_eq hkeys hvalues).imp fun _ _ h => Prod.ext h.1 h.2

lemma nodup_of_distinct {entries : List (String × α)} (h : Distinct entries) : entries.Nodup :=
  (List.pairwise_map.1 h).imp fun hkey heq => hkey (congrArg Prod.fst heq)

/-- Entries among others, the keys of both being distinct, are a rearrangement of them if they have
every key. -/
lemma perm_of_distinct {xs ys : List (String × α)} (hxs : Distinct xs) (hys : Distinct ys)
    (hsubset : ∀ x ∈ xs, x ∈ ys) (hkeys : ∀ key ∈ keys ys, key ∈ keys xs) : xs.Perm ys := by
  refine (List.perm_ext_iff_of_nodup (nodup_of_distinct hxs) (nodup_of_distinct hys)).2 fun y => ?_
  refine ⟨hsubset y, fun hy => ?_⟩
  obtain ⟨x, hx, hkey⟩ := List.mem_map.1 (hkeys y.1 (List.mem_map_of_mem hy))
  rwa [← eq_of_distinct hys (hsubset x hx) hy hkey]

end TypedAttributes.Keyed
