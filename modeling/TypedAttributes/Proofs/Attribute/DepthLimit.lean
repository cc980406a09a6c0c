/-
# The limit of nesting

Conversion gives up where it would enter more collections than the limit allows, and it looks at
nothing behind that place.  Under a wider limit it goes the same way, past the place at which it
gave up if it did.  So a result that is not a refusal for depth does not change any more when the
limit is raised, whether it is a value or another error; `CutAt` says this of two results, and of
computations that are put together from others.

A collection is entered when the type asks for one and a known value is there.  So as many levels as
the type has are always enough, and what is null, unknown or without a type is never too deep.
-/
import TypedAttributes.Proofs.Attribute.Conversion

namespace TypedAttributes.Attribute

variable {ρ : Type}

/-! ## Results under two limits -/

/-- Whether a result is the one under a wider limit, unless the limit has cut it short. -/
def CutAt {α : Type} (limit : Nat) (result wider : Except Error α) : Prop :=
  result = .error (.depthExceeded limit) ∨ wider = result

namespace CutAt

variable {α β : Type} {limit : Nat}

lemma refl (result : Except Error α) : CutAt limit result result := Or.inr rfl

lemma bind {result wider : Except Error α} {next next' : α → Except Error β}
    (h : CutAt limit result wider) (hnext : ∀ a, CutAt limit (next a) (next' a)) :
    CutAt limit (result >>= next) (wider >>= next') := by
  obtain rfl | rfl := h
  · exact Or.inl rfl
  · cases wider with
    | error error => exact Or.inr rfl
    | ok a => exact hnext a

lemma mapM {f f' : α → Except Error β} (h : ∀ a, CutAt limit (f a) (f' a)) (items : List α) :
    CutAt limit (items.mapM f) (items.mapM f') := by
  induction items with
  | nil => exact refl _
  | cons item rest ih =>
    rw [List.mapM_cons, List.mapM_cons]
    exact (h item).bind fun _ => ih.bind fun _ => refl _

lemma traverse {f f' : α → Except Error β} (h : ∀ a, CutAt limit (f a) (f' a))
    (entries : List (String × α)) :
    CutAt limit (Keyed.traverse f entries) (Keyed.traverse f' entries) := by
  induction entries with
  | nil => exact refl _
  | cons entry rest ih =>
    rw [Keyed.traverse, Keyed.traverse]
    exact (h entry.2).bind fun _ => ih.bind fun _ => refl _

end CutAt

lemma Walk.depthExceeded_of_descend {walk : Walk} {n : Nat}
    (h : walk.descend = .error (.depthExceeded n)) : n = walk.maxDepth ∧ walk.room = 0 := by
  rw [descend] at h
  split at h
  next hfull =>
    cases h
    exact ⟨rfl, Nat.sub_eq_zero_of_le hfull⟩
  next => cases h

namespace Ty

/-- What conversion makes of a known collection once it has entered it. -/
def convertContent (shape : Shape) (element : Ty ρ) (input : Wire.Value) (below : Walk) :
    Except Error (Value ρ) :=
  match shape with
  | .list => do
    let items ← ofWire input.asList
    return .list (some element) (.known (← items.mapM fun item => element.convert item below))
  | .map => do
    let entries ← ofWire input.asMap
    return .map (some element)
      (.known (← Keyed.traverse (fun value => element.convert value below) entries))
  | .set => do
    let members ← ofWire input.asSet
    return .set (some element) (.known (← members.mapM fun member => element.convert member below))

lemma convert_collection (shape : Shape) (element : Ty ρ) (input : Wire.Value) (walk : Walk) :
    (Ty.collection shape element).convert input walk =
      (Ty.collection shape element).wireTy >>= fun expected =>
        determine expected (mismatchTarget shape element) input >>= fun
          | .null => .ok (.nullCollection shape (some element))
          | .unknown => .ok (.unknownCollection shape (some element))
          | .known _ => walk.descend >>= convertContent shape element input := by
  rw [convert]
  cases shape <;> rfl

/-! ## Raising the limit -/

lemma convertContent_cutAt {limit : Nat} {shape : Shape} {element : Ty ρ} {below below' : Walk}
    (h : ∀ child, CutAt limit (element.convert child below) (element.convert child below'))
    (input : Wire.Value) :
    CutAt limit (convertContent shape element input below)
      (convertContent shape element input below') := by
  cases shape with
  | list => exact .bind (.refl _) fun items => .bind (.mapM h items) fun _ => .refl _
  | map => exact .bind (.refl _) fun entries => .bind (.traverse h entries) fun _ => .refl _
  | set => exact .bind (.refl _) fun members => .bind (.mapM h members) fun _ => .refl _

/-- Under a wider limit conversion goes on from the same place in the same way. -/
lemma convert_cutAt {limit wider : Nat} (h : limit ≤ wider) (ty : Ty ρ) (input : Wire.Value)
    (depth : Nat) :
    CutAt limit (ty.convert input ⟨limit, depth⟩) (ty.convert input ⟨wider, depth⟩) := by
  induction ty generalizing input depth with
  | scalar kind => exact .refl _
  | collection shape element ih =>
    rw [convert_collection, convert_collection]
    refine .bind (.refl _) fun expected => .bind (.refl _) fun state => ?_
    rcases state with _ | _ | payload
    · exact .refl _
    · exact .refl _
    · by_cases hdepth : limit ≤ depth
      · -- here the narrower limit is reached, and nothing has to be known of what comes behind
        have hcut : Walk.descend ⟨limit, depth⟩ = .error (.depthExceeded limit) := if_pos hdepth
        rw [hcut]
        exact Or.inl rfl
      · have henter : Walk.descend ⟨limit, depth⟩ = .ok ⟨limit, depth + 1⟩ := if_neg hdepth
        have henter' : Walk.descend ⟨wider, depth⟩ = .ok ⟨wider, depth + 1⟩ :=
          if_neg fun hwider => hdepth (h.trans hwider)
        rw [henter, henter']
        exact convertContent_cutAt (fun child => ih child (depth + 1)) input
  | bare shape => exact .refl _
  | custom name base validation ih =>
    rw [convert, convert]
    exact .bind (ih input depth) fun _ => .refl _

/-! ## Refusals for depth -/

/-- The number of collections that are nested in a type; custom types add none. -/
def levels : Ty ρ → Nat
  | .scalar _ => 0
  | .collection _ element => element.levels + 1
  | .bare _ => 1
  | .custom _ base _ => base.levels

/-- A value that fits a type is nested no deeper than the type has levels. -/
lemma nesting_le_levels {ty : Ty ρ} {input : Wire.Value} (h : ty.fits input = true) :
    input.nesting ≤ ty.levels := by
  induction ty generalizing input with
  | scalar kind =>
    rw [Wire.Value.nesting_of_not_isCollection (isCollection_of_fits_scalar h)]
    exact Nat.zero_le _
  | collection shape element ih =>
    rcases input with _ | ⟨declared, _ | _ | payload⟩
    · exact Nat.zero_le _
    · exact Nat.zero_le _
    · exact Nat.zero_le _
    · obtain ⟨hkind, hchildren⟩ := (fits_collection_iff.1 h).2 payload rfl
      have hcollection : (Wire.Value.typed declared (.known payload)).isCollection = true :=
        Wire.Payload.isCollection_of_kind hkind
      rw [Wire.Value.nesting_le_iff hcollection]
      exact ⟨Nat.succ_pos _, fun child hchild => ih (hchildren child hchild)⟩
  | bare shape =>
    rcases input with _ | ⟨declared, state⟩
    · exact Nat.zero_le _
    · cases h
  | custom name base validation ih =>
    rw [fits_custom] at h
    exact ih h

lemma wireTy_ne_depthExceeded {ty : Ty ρ} {n : Nat} : ty.wireTy ≠ .error (.depthExceeded n) := by
  intro h
  induction ty with
  | scalar kind => cases h
  | collection shape element ih =>
    rw [wireTy, bind_eq_error_iff] at h
    obtain h | ⟨_, -, h⟩ := h
    · exact ih h
    · cases h
  | bare shape => cases h
  | custom name base validation ih => exact ih h

lemma determine_ne_depthExceeded {expected : Wire.Ty} {target : String} {input : Wire.Value}
    {n : Nat} : determine expected target input ≠ .error (.depthExceeded n) := by
  intro h
  cases input with
  | untyped => cases h
  | typed ty state =>
    rw [determine] at h
    split at h <;> cases h

lemma ofWire_ne_depthExceeded {α : Type} {result : Except Wire.Error α} {n : Nat} :
    ofWire result ≠ .error (.depthExceeded n) := by
  cases result <;> exact nofun

lemma convert_scalar_ne_depthExceeded {kind : Scalar.Kind} {input : Wire.Value} {walk : Walk}
    {n : Nat} : (Ty.scalar kind : Ty ρ).convert input walk ≠ .error (.depthExceeded n) := by
  intro h
  rw [convert, bind_eq_error_iff] at h
  obtain h | ⟨state, -, h⟩ := h
  · exact determine_ne_depthExceeded h
  rcases state with _ | _ | payload
  · cases h
  · cases h
  · obtain h | ⟨_, -, h⟩ := bind_eq_error_iff.1 h
    · exact ofWire_ne_depthExceeded h
    · cases h

/-- What conversion makes of children is refused for depth only if a child is. -/
lemma exists_child_of_mapM {convert : Wire.Value → Except Error (Value ρ)}
    {children : List Wire.Value} {finish : List (Value ρ) → Value ρ} {n : Nat}
    (h : (children.mapM convert >>= fun converted => pure (finish converted)) =
      .error (.depthExceeded n)) :
    ∃ child, convert child = .error (.depthExceeded n) := by
  obtain h | ⟨_, -, h⟩ := bind_eq_error_iff.1 h
  · obtain ⟨-, child, -, -, -, hchild⟩ := mapM_eq_error_iff.1 h
    exact ⟨child, hchild⟩
  · cases h

lemma exists_child_of_convertContent {shape : Shape} {element : Ty ρ} {input : Wire.Value}
    {below : Walk} {n : Nat}
    (h : convertContent shape element input below = .error (.depthExceeded n)) :
    ∃ child, element.convert child below = .error (.depthExceeded n) := by
  cases shape with
  | list =>
    obtain h | ⟨items, -, h⟩ := bind_eq_error_iff.1 h
    · exact absurd h ofWire_ne_depthExceeded
    · exact exists_child_of_mapM h
  | map =>
    obtain h | ⟨entries, -, h⟩ := bind_eq_error_iff.1 h
    · exact absurd h ofWire_ne_depthExceeded
    obtain h | ⟨_, -, h⟩ := bind_eq_error_iff.1 h
    · obtain ⟨-, child, -, -, -, hchild⟩ := mapM_eq_error_iff.1 (Keyed.traverse_eq_error_iff.1 h)
      exact ⟨child, hchild⟩
    · cases h
  | set =>
    obtain h | ⟨members, -, h⟩ := bind_eq_error_iff.1 h
    · exact absurd h ofWire_ne_depthExceeded
    · exact exists_child_of_mapM h

/-- A refusal for depth names the limit.  There was less room than the type has levels, and the
value is known. -/
lemma of_convert_eq_depthExceeded {ty : Ty ρ} {input : Wire.Value} {walk : Walk} {n : Nat}
    (h : ty.convert input walk = .error (.depthExceeded n)) :
    n = walk.maxDepth ∧ walk.room < ty.levels ∧ input.payload? ≠ none := by
  induction ty generalizing input walk with
  | scalar kind => exact absurd h convert_scalar_ne_depthExceeded
  | collection shape element ih =>
    rw [convert_collection, bind_eq_error_iff] at h
    obtain h | ⟨expected, -, h⟩ := h
    · exact absurd h wireTy_ne_depthExceeded
    obtain h | ⟨state, hstate, h⟩ := bind_eq_error_iff.1 h
    · exact absurd h determine_ne_depthExceeded
    rcases state with _ | _ | payload
    · cases h
    · cases h
    have hknown : input.payload? ≠ none := by
      obtain ⟨-, h⟩ | rfl := determine_eq_ok_iff.1 hstate
      · cases h
      · exact nofun
    obtain h | ⟨below, hbelow, h⟩ := bind_eq_error_iff.1 h
    · obtain ⟨rfl, hroom⟩ := Walk.depthExceeded_of_descend h
      exact ⟨rfl, by rw [levels]; omega, hknown⟩
    · -- the child was refused one level below, where there is one level less to go
      obtain ⟨child, hchild⟩ := exists_child_of_convertContent h
      obtain ⟨hlimit, hroom, -⟩ := ih hchild
      have hless := Walk.room_of_descend hbelow
      obtain ⟨-, rfl⟩ := Walk.descend_eq_ok_iff.1 hbelow
      exact ⟨hlimit, by rw [levels]; omega, hknown⟩
  | bare shape => cases h
  | custom name base validation ih =>
    rw [convert, bind_eq_error_iff] at h
    obtain h | ⟨_, -, h⟩ := h
    · exact ih h
    · cases h

/-! ## Conversion under limits -/

/-- The limit cuts conversion short and does nothing else.  Any result other than a refusal for
depth stays what it is when the limit is raised.  A refusal names the limit in force; there is none
if the limit is at least the number of levels of the type, nor of a value that is null, unknown or
without a type; and for a value that is converted under some limit it is the only error there is
under any. -/
theorem ofWireValue_limit_only_cuts (ty : Ty ρ) (input : Wire.Value) (limits : Limits) :
    (∀ wider : Limits, limits.maxDepth ≤ wider.maxDepth →
      (∀ limit, ty.ofWireValue input limits ≠ .error (.depthExceeded limit)) →
      ty.ofWireValue input wider = ty.ofWireValue input limits) ∧
    (∀ limit, ty.ofWireValue input limits = .error (.depthExceeded limit) →
      limit = limits.maxDepth) ∧
    (ty.levels ≤ limits.maxDepth ∨ input.payload? = none →
      ∀ limit, ty.ofWireValue input limits ≠ .error (.depthExceeded limit)) ∧
    ((∃ enough value, ty.ofWireValue input enough = .ok value) →
      ∀ error, ty.ofWireValue input limits = .error error →
        error = .depthExceeded limits.maxDepth) := by
  have hcut (wider : Limits) (h : limits.maxDepth ≤ wider.maxDepth) :
      CutAt limits.maxDepth (ty.ofWireValue input limits) (ty.ofWireValue input wider) :=
    convert_cutAt h ty input 0
  refine ⟨fun wider h hne => (hcut wider h).resolve_left (hne _),
    fun limit h => (of_convert_eq_depthExceeded h).1, fun henough limit h => ?_, ?_⟩
  · obtain ⟨-, hroom, hknown⟩ := of_convert_eq_depthExceeded h
    rw [Walk.room_start] at hroom
    exact henough.elim (Nat.not_le_of_lt hroom) hknown
  · rintro ⟨enough, value, hvalue⟩ error herror
    -- under the greater of the two limits there is the value, and the error unless it was a cut
    have hgreater : ty.ofWireValue input ⟨max limits.maxDepth enough.maxDepth⟩ = .ok value := by
      obtain h | h := convert_cutAt (le_max_right limits.maxDepth enough.maxDepth) ty input 0
      · cases hvalue.symm.trans h
      · exact h.trans hvalue
    obtain h | h := hcut ⟨max limits.maxDepth enough.maxDepth⟩ (le_max_left _ _)
    · exact Except.error.inj (herror.symm.trans h)
    · cases hgreater.symm.trans (h.trans herror)

/-- Rows of names. -/
def nameRows : Ty Empty := .collection .list (.collection .list (.scalar .string))

/-- A row of one name. -/
def nameRow : Wire.Value := .list (.scalar .string) [.scalar (.string "a")]

/-- A list of rows, some of which may be something else. -/
def rowsOf (items : List Wire.Value) : Wire.Value :=
  .list (.collection .list (.scalar .string)) items

/-- A truth value before a row is what is refused, whatever the limit.  After a row it is not seen
under a limit of one, which cuts conversion short, while the two levels of the type are enough to
get to it.  Without it, a limit of one is all that is wrong. -/
theorem ofWireValue_limit_only_cuts_rows :
    let flag : Wire.Value := .scalar (.bool true)
    (∀ limit, nameRows.ofWireValue (rowsOf [flag, nameRow]) ⟨1⟩ ≠ .error (.depthExceeded limit)) ∧
      nameRows.ofWireValue (rowsOf [flag, nameRow]) ⟨9⟩ =
        nameRows.ofWireValue (rowsOf [flag, nameRow]) ⟨1⟩ ∧
      nameRows.ofWireValue (rowsOf [nameRow, flag]) ⟨1⟩ = .error (.depthExceeded 1) ∧
      nameRows.levels ≤ 2 ∧
      (∀ limit, nameRows.ofWireValue (rowsOf [nameRow, flag]) ⟨2⟩ ≠ .error (.depthExceeded limit)) ∧
      (∃ enough value, nameRows.ofWireValue (rowsOf [nameRow]) enough = .ok value) ∧
      ∃ error, nameRows.ofWireValue (rowsOf [nameRow]) ⟨1⟩ = .error error ∧
        error = .depthExceeded 1 := by
  intro flag
  have hmismatch : ∃ value target expected,
      nameRows.ofWireValue (rowsOf [flag, nameRow]) ⟨1⟩ =
        .error (.typeMismatch value target expected) :=
    ⟨_, _, _, rfl⟩
  have hne (limit : Nat) :
      nameRows.ofWireValue (rowsOf [flag, nameRow]) ⟨1⟩ ≠ .error (.depthExceeded limit) := by
    obtain ⟨value, target, expected, h⟩ := hmismatch
    rw [h]
    exact nofun
  have hlevels : nameRows.levels ≤ 2 := by decide
  have hvalue : ∃ enough value, nameRows.ofWireValue (rowsOf [nameRow]) enough = .ok value :=
    ⟨⟨2⟩, _, rfl⟩
  refine ⟨hne, ?_, rfl, hlevels, ?_, hvalue, _, rfl, ?_⟩
  · exact (ofWireValue_limit_only_cuts nameRows (rowsOf [flag, nameRow]) ⟨1⟩).1 ⟨9⟩ (by decide) hne
  · exact (ofWireValue_limit_only_cuts nameRows (rowsOf [nameRow, flag]) ⟨2⟩).2.2.1 (Or.inl hlevels)
  · exact (ofWireValue_limit_only_cuts nameRows (rowsOf [nameRow]) ⟨1⟩).2.2.2 hvalue _ rfl

end Ty

end TypedAttributes.Attribute
