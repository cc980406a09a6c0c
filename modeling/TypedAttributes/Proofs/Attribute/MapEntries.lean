/-
# Maps of given entries

A known map is built from an element type and entries in any order, in which keys may occur again.
Every entry is compared with the element type when its turn comes, also one that is replaced later,
so what fails is the first entry of another type.  Of the others the first with a key decides where
the key stands in the map and the last with it what it stands for.

So what a map holds is said by the last entry for each key.  Maps in which these agree are equal,
and they are encoded alike, as neither equality nor the encoding sees in which order the keys stand.
-/
import TypedAttributes.Proofs.Attribute.Construction
import TypedAttributes.Proofs.Attribute.Encoding

namespace TypedAttributes

namespace Keyed

variable {α β : Type}

/-- Entries with distinct keys that agree key by key are a rearrangement of one another. -/
lemma perm_of_lookup_eq {xs ys : List (String × α)} (hxs : Distinct xs) (hys : Distinct ys)
    (h : ∀ key, xs.lookup key = ys.lookup key) : xs.Perm ys := by
  refine (List.perm_ext_iff_of_nodup (nodup_of_distinct hxs) (nodup_of_distinct hys)).2
    fun entry => ?_
  rw [← Prod.mk.eta (p := entry), ← lookup_eq_some_iff hxs, ← lookup_eq_some_iff hys, h]

/-- Put in order, entries with distinct keys are the same as any rearrangement of them. -/
lemma ofEntries_eq_of_perm {xs ys : List (String × α)} (hxs : Distinct xs) (hperm : xs.Perm ys) :
    ofEntries xs = ofEntries ys := by
  have hys : Distinct ys := (hperm.map Prod.fst).pairwise hxs Ne.symm
  have hsorted : (ofEntries xs).Perm (ofEntries ys) :=
    (ofEntries_perm hxs).trans (hperm.trans (ofEntries_perm hys).symm)
  exact eq_of_perm_of_ascending hsorted (ascending_ofEntries xs) (ascending_ofEntries ys)

end Keyed

namespace Attribute.Value

variable {ρ : Type}

/-! ## Entries of another type -/

lemma checkElement_eq_error_iff {shape : Shape} {element : Ty ρ} {position : String}
    {value : Value ρ} {error : Error} : checkElement shape element position value = .error error ↔
      value.ty.equal element = false ∧
        error = .elementTypeMismatch shape position element.text value.ty.text := by
  rw [checkElement]
  split
  next h => simp [h]
  next h => simp [h, eq_comm]

/-- A map is not built when the value of an entry has another type; the first such entry is
reported. -/
lemma newMap_eq_error_iff {element : Ty ρ} {entries : List (String × Value ρ)} {error : Error} :
    newMap element entries = .error error ↔ ∃ before key value after,
      entries = before ++ (key, value) :: after ∧
        (∀ entry ∈ before, entry.2.ty.equal element = true) ∧
        value.ty.equal element = false ∧
          error = .elementTypeMismatch .map (Text.quoted key) element.text value.ty.text := by
  rw [newMap, bind_pure_eq_error_iff, addEntries_eq, bind_pure_eq_error_iff, forM_eq_error_iff]
  simp only [checkElement_eq_ok_iff, checkElement_eq_error_iff, Prod.exists]

/-- A map of entries is built or some entry is of another type. -/
lemma exists_newMap_eq_error_iff {element : Ty ρ} {entries : List (String × Value ρ)} :
    (∃ error, newMap element entries = .error error) ↔
      ∃ entry ∈ entries, entry.2.ty.equal element = false := by
  cases h : newMap element entries with
  | ok map =>
    have hvalues := (newMap_eq_ok_iff.1 h).1
    simp only [List.forall_mem_map] at hvalues
    simpa using fun key value hentry => hvalues (key, value) hentry
  | error error =>
    obtain ⟨before, key, value, after, rfl, -, hvalue, -⟩ := newMap_eq_error_iff.1 h
    refine ⟨fun _ => ⟨(key, value), by simp, hvalue⟩, fun _ => ⟨error, rfl⟩⟩

/-! ## Last entries -/

/-- Maps of entries of which those that come last with their keys are equal are equal. -/
lemma equal_of_last_entries {element : Ty ρ} {xs ys : List (String × Value ρ)}
    (helement : element.equal element = true)
    (h : ∀ key,
      Option.Rel (fun x y => x.equal y = true) (xs.reverse.lookup key) (ys.reverse.lookup key)) :
    (map (some element) (.known (Keyed.putAll [] xs))).equal
      (map (some element) (.known (Keyed.putAll [] ys))) = true := by
  rw [equal_map_known_iff (Keyed.distinct_putAll_nil xs) (Keyed.distinct_putAll_nil ys)]
  refine ⟨helement, fun key => ?_⟩
  rw [Keyed.lookup_putAll_nil, Keyed.lookup_putAll_nil]
  exact h key

/-- A map is encoded independently of the order of its entries. -/
lemma toWire_map_of_perm {element : Option (Ty ρ)} {wire : Wire.Ty}
    {xs ys : List (String × Value ρ)} (hwire : (Ty.ofElement .map element).wireTy = .ok wire)
    (hxs : Keyed.Distinct xs) (hperm : xs.Perm ys)
    (hvalues : ∀ entry ∈ xs, ∃ w, entry.2.toWire = .ok w) :
    ∃ w, (map element (.known xs)).toWire = .ok w ∧ (map element (.known ys)).toWire = .ok w := by
  have hentries : ∀ entry ∈ xs, ∃ w : String × Wire.Value, entry.1 = w.1 ∧
      entry.2.toWire = .ok w.2 := by
    intro entry hentry
    obtain ⟨w, hw⟩ := hvalues entry hentry
    exact ⟨(entry.1, w), rfl, hw⟩
  obtain ⟨us, hus⟩ := exists_forall₂ hentries
  obtain ⟨vs, hvs, hsame⟩ := List.perm_comp_forall₂ hperm.symm hus
  have hkeys : Keyed.keys xs = Keyed.keys us := Keyed.keys_eq_iff.2 (hus.imp fun _ _ h => h.1)
  have hdistinct : Keyed.Distinct us := by rwa [Keyed.Distinct, ← hkeys]
  have hpayload : Wire.Payload.ofEntries us = .ofEntries vs :=
    congrArg Wire.Payload.map (Keyed.ofEntries_eq_of_perm hdistinct hsame.symm)
  exact ⟨_, toWire_map_known hwire hus, hpayload ▸ toWire_map_known hwire hvs⟩

/-- Maps of entries of which those that come last with their keys are the same are encoded alike. -/
lemma toWire_of_last_entries {element : Ty ρ} {xs ys : List (String × Value ρ)}
    (helement : element.equal element = true)
    (h : ∀ key, xs.reverse.lookup key = ys.reverse.lookup key)
    (hencoded : ∀ key value, xs.reverse.lookup key = some value → ∃ w, value.toWire = .ok w) :
    ∃ w, (map (some element) (.known (Keyed.putAll [] xs))).toWire = .ok w ∧
      (map (some element) (.known (Keyed.putAll [] ys))).toWire = .ok w := by
  have hxs := Keyed.distinct_putAll_nil xs
  have hcomplete : (Ty.collection .map element).isComplete = true :=
    (Ty.equal_self element).symm.trans helement
  obtain ⟨wire, hwire⟩ := Ty.isComplete_iff.1 hcomplete
  have hperm : (Keyed.putAll [] xs).Perm (Keyed.putAll [] ys) := by
    refine Keyed.perm_of_lookup_eq hxs (Keyed.distinct_putAll_nil ys) fun key => ?_
    rw [Keyed.lookup_putAll_nil, Keyed.lookup_putAll_nil, h]
  refine toWire_map_of_perm hwire hxs hperm fun entry hentry => ?_
  have hlast := (Keyed.lookup_eq_some_iff hxs).2 hentry
  rw [Keyed.lookup_putAll_nil] at hlast
  exact hencoded entry.1 entry.2 hlast

/-- A map is not built exactly when the value of some entry, be it replaced later or not, has a type
that is not equal to the element type; the error names the key of the first such entry, the element
type and the type of the value.  Otherwise the keys stand in the order of first occurrence, each
stands for the value of the last entry with it, and there are as many entries as different keys.

Hence entries of a type that equals itself make equal maps whenever for each key the last entries
are equal, and maps with identical encodings whenever these are the same and can be encoded. -/
theorem newMap_by_last_entries (element : Ty ρ) (xs : List (String × Value ρ)) :
    ((∃ error, newMap element xs = .error error) ↔ ∃ entry ∈ xs, entry.2.ty.equal element = false) ∧
    (∀ error, newMap element xs = .error error → ∃ before key value after,
      xs = before ++ (key, value) :: after ∧ (∀ entry ∈ before, entry.2.ty.equal element = true) ∧
        value.ty.equal element = false ∧
          error = .elementTypeMismatch .map (Text.quoted key) element.text value.ty.text) ∧
    (∀ value, newMap element xs = .ok value → ∃ built, value = .map (some element) (.known built) ∧
      Keyed.keys built = (Keyed.keys xs).eraseDups ∧
        (∀ key, value.get? key = xs.reverse.lookup key) ∧
          value.elements.length = (Keyed.keys xs).toFinset.card) ∧
    ∀ ys, element.equal element = true → (∀ entry ∈ xs ++ ys, entry.2.ty.equal element = true) →
      ∃ a b, newMap element xs = .ok a ∧ newMap element ys = .ok b ∧
        ((∀ key, Option.Rel (fun x y => x.equal y = true) (xs.reverse.lookup key)
          (ys.reverse.lookup key)) →
          a.equal b = true) ∧
        ((∀ key, xs.reverse.lookup key = ys.reverse.lookup key) →
          (∀ key value, xs.reverse.lookup key = some value → ∃ w, value.toWire = .ok w) →
            ∃ w, a.toWire = .ok w ∧ b.toWire = .ok w) := by
  refine ⟨exists_newMap_eq_error_iff, fun error h => newMap_eq_error_iff.1 h, fun value h => ?_,
    fun ys helement hvalues => ?_⟩
  · obtain ⟨-, rfl⟩ := newMap_eq_ok_iff.1 h
    refine ⟨_, rfl, Keyed.keys_putAll_nil xs, fun key => ?_, ?_⟩
    · simp [get?, entries, Keyed.lookup_putAll_nil]
    · simp [elements, Keyed.length_putAll_nil]
  · have hmap (zs : List (String × Value ρ)) (hzs : ∀ entry ∈ zs, entry ∈ xs ++ ys) :
        newMap element zs = .ok (.map (some element) (.known (Keyed.putAll [] zs))) := by
      refine newMap_eq_ok_iff.2 ⟨?_, rfl⟩
      rw [List.forall_mem_map]
      exact fun entry hentry => hvalues entry (hzs entry hentry)
    exact ⟨_, _, hmap xs (by simp +contextual), hmap ys (by simp +contextual),
      equal_of_last_entries helement, toWire_of_last_entries helement⟩

/-- Limits of which the first one is replaced, so that it does not matter that it is not a number,
are a map that equals one with the zero of the other sign, and is encoded like one in which the
names stand the other way round.  It does matter that a name is no limit, even if it is replaced. -/
theorem newMap_by_last_entries_limits :
    let xs := limits [("low", .nan), ("high", .ofRank false 0), ("low", .ofRank true 1)]
    let ys := limits [("high", .ofRank true 0), ("low", .ofRank true 1)]
    let zs := limits [("high", .ofRank false 0), ("low", .ofRank true 1)]
    let name : Value Empty := .ofScalar (.string "low")
    Ty.limit.equal Ty.limit = true ∧
      (∀ entry ∈ xs ++ ys, entry.2.ty.equal Ty.limit = true) ∧
      (∀ entry ∈ xs ++ zs, entry.2.ty.equal Ty.limit = true) ∧
      (∃ a b, newMap Ty.limit xs = .ok a ∧ newMap Ty.limit ys = .ok b ∧ a.equal b = true) ∧
      (∃ a c w, newMap Ty.limit xs = .ok a ∧ newMap Ty.limit zs = .ok c ∧
        a.toWire = .ok w ∧ c.toWire = .ok w) ∧
      newMap Ty.limit (("low", name) :: xs) =
        .error (.elementTypeMismatch .map "\"low\"" "Limit" "StringType") := by
  intro xs ys zs name
  have hys : ∀ entry ∈ xs ++ ys, entry.2.ty.equal Ty.limit = true := by decide
  have hzs : ∀ entry ∈ xs ++ zs, entry.2.ty.equal Ty.limit = true := by decide
  obtain ⟨a, b, ha, hb, hequal, -⟩ := (newMap_by_last_entries Ty.limit xs).2.2.2 ys rfl hys
  obtain ⟨a', c, ha', hc, -, hencoded⟩ := (newMap_by_last_entries Ty.limit xs).2.2.2 zs rfl hzs
  have hbad : newMap Ty.limit (("low", name) :: xs) =
      .error (.elementTypeMismatch .map "\"low\"" "Limit" "StringType") := by
    obtain ⟨hfails, hfirst, -⟩ := newMap_by_last_entries Ty.limit (("low", name) :: xs)
    obtain ⟨error, herror⟩ := hfails.2 ⟨("low", name), List.mem_cons_self, rfl⟩
    obtain ⟨before, key, value, after, hsplit, hbefore, -, rfl⟩ := hfirst error herror
    -- the name is the first entry, so no entry of the element type is before it
    cases before with
    | nil =>
      obtain ⟨⟨rfl, rfl⟩, -⟩ := (List.cons.inj hsplit).imp Prod.mk.inj id
      have hkey : Text.quoted "low" = "\"low\"" := by decide +kernel
      have hname : name.ty.text = "StringType" := by decide
      rw [herror, hkey, hname]
      rfl
    | cons first before =>
      obtain ⟨rfl, -⟩ := List.cons.inj hsplit
      exact absurd (hbefore _ List.mem_cons_self) (by decide)
  have hlast (key : String) : xs.reverse.lookup key =
      (limits [("low", .ofRank true 1), ("high", .ofRank false 0)]).lookup key :=
    (Keyed.lookup_putAll_nil xs key).symm
  have hab : a.equal b = true := by
    refine hequal fun key => ?_
    rw [hlast]
    exact (entriesEqual_iff_lookup (by decide) (by decide)).1 (by decide) key
  have hac : ∃ w, a'.toWire = .ok w ∧ c.toWire = .ok w := by
    refine hencoded (fun key => ?_) fun key value hvalue => ?_
    · exact (hlast key).trans rfl
    · rw [hlast, Keyed.lookup_eq_some_iff (by decide)] at hvalue
      have hencodable : ∀ entry ∈ limits [("low", .ofRank true 1), ("high", .ofRank false 0)],
          ∃ w, entry.2.toWire = .ok w := by
        simp only [limits, Keyed.mapValues, List.map_cons, List.map_nil, List.forall_mem_cons]
        exact ⟨⟨_, rfl⟩, ⟨_, rfl⟩, List.forall_mem_nil _⟩
      exact hencodable (key, value) hvalue
  obtain ⟨w, haw, hcw⟩ := hac
  exact ⟨rfl, hys, hzs, ⟨a, b, ha, hb, hab⟩, ⟨a', c, w, ha', hc, haw, hcw⟩, hbad⟩

end Attribute.Value

end TypedAttributes
