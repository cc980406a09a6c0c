/-
# Custom types leave no trace in conversion

A custom type is a name for its base.  Conversion hands a wire value on to the base, at the same
place of the walk, and wraps what comes back.  So a type and the same type with bases in place of
all custom types exchange the same wire type, accept the same values under the same limits, and
differ in what they make of them by the wrappers alone.

What fails fails alike.  Only one text tells the two types apart: a mismatch at a collection shows
the element type, and that may name custom types.  `Mirrors` says of two results that they agree in
this way, and is kept by whatever conversion is put together from.
-/
import TypedAttributes.Proofs.Attribute.Construction
import TypedAttributes.Proofs.Attribute.DepthLimit

namespace TypedAttributes.Attribute

variable {ρ : Type}

/-! ## Bases in place of custom types -/

namespace Ty

/-- The type with the base in place of every custom type, at any depth. -/
def plain : Ty ρ → Ty ρ
  | .scalar kind => .scalar kind
  | .collection shape element => .collection shape element.plain
  | .bare shape => .bare shape
  | .custom _ base _ => base.plain

/-- Custom types do not show on the wire. -/
lemma wireTy_plain (ty : Ty ρ) : ty.plain.wireTy = ty.wireTy := by
  induction ty with
  | scalar kind => rfl
  | collection shape element ih => rw [plain, wireTy, wireTy, ih]
  | bare shape => rfl
  | custom name base validation ih => rw [plain, wireTy, ih]

lemma wireTy_ofElement_map_plain (shape : Shape) (element : Option (Ty ρ)) :
    (ofElement shape (element.map plain)).wireTy = (ofElement shape element).wireTy := by
  cases element with
  | none => rfl
  | some element => exact wireTy_plain (.collection shape element)

end Ty

namespace Value

mutual

/-- The value with every wrapper in it opened, and with bases in place of the custom types that it
carries. -/
def opened : Value ρ → Value ρ
  | .scalar kind state => .scalar kind state
  | .list element .null => .list (element.map Ty.plain) .null
  | .list element .unknown => .list (element.map Ty.plain) .unknown
  | .list element (.known items) => .list (element.map Ty.plain) (.known (openedItems items))
  | .map element .null => .map (element.map Ty.plain) .null
  | .map element .unknown => .map (element.map Ty.plain) .unknown
  | .map element (.known entries) => .map (element.map Ty.plain) (.known (openedEntries entries))
  | .set element .null => .set (element.map Ty.plain) .null
  | .set element .unknown => .set (element.map Ty.plain) .unknown
  | .set element (.known members) => .set (element.map Ty.plain) (.known (openedItems members))
  | .custom _ _ _ inner => inner.opened
termination_by structural value => value

/-- Some values, each opened. -/
def openedItems : List (Value ρ) → List (Value ρ)
  | [] => []
  | value :: rest => value.opened :: openedItems rest
termination_by structural values => values

/-- Some entries with their values opened. -/
def openedEntries : List (String × Value ρ) → List (String × Value ρ)
  | [] => []
  | (key, value) :: rest => (key, value.opened) :: openedEntries rest
termination_by structural entries => entries

end

lemma openedItems_eq (values : List (Value ρ)) : openedItems values = values.map opened := by
  induction values with
  | nil => rfl
  | cons value rest ih => rw [openedItems, ih, List.map_cons]

lemma openedEntries_eq (entries : List (String × Value ρ)) :
    openedEntries entries = Keyed.mapValues opened entries := by
  induction entries with
  | nil => rfl
  | cons entry rest ih =>
    obtain ⟨key, value⟩ := entry
    rw [openedEntries, ih]
    rfl

lemma opened_list_known (element : Option (Ty ρ)) (items : List (Value ρ)) :
    (list element (.known items)).opened =
      list (element.map Ty.plain) (.known (items.map opened)) := by
  rw [opened, openedItems_eq]

lemma opened_map_known (element : Option (Ty ρ)) (entries : List (String × Value ρ)) :
    (map element (.known entries)).opened =
      map (element.map Ty.plain) (.known (Keyed.mapValues opened entries)) := by
  rw [opened, openedEntries_eq]

lemma opened_set_known (element : Option (Ty ρ)) (members : List (Value ρ)) :
    (set element (.known members)).opened =
      set (element.map Ty.plain) (.known (members.map opened)) := by
  rw [opened, openedItems_eq]

lemma opened_nullCollection (shape : Shape) (element : Option (Ty ρ)) :
    (nullCollection shape element).opened = nullCollection shape (element.map Ty.plain) := by
  cases shape <;> rfl

lemma opened_unknownCollection (shape : Shape) (element : Option (Ty ρ)) :
    (unknownCollection shape element).opened = unknownCollection shape (element.map Ty.plain) := by
  cases shape <;> rfl

/-- Opening does not change whether a value is null. -/
lemma isNull_opened (value : Value ρ) : value.opened.isNull = value.isNull := by
  induction value using Value.induction with
  | step value ih =>
    rcases value with _ | ⟨element, _ | _ | _⟩ | ⟨element, _ | _ | _⟩ | ⟨element, _ | _ | _⟩ |
      ⟨name, base, validation, inner⟩
    case custom => exact ih inner List.mem_cons_self
    all_goals rfl

/-- Opening does not change whether a value is unknown. -/
lemma isUnknown_opened (value : Value ρ) : value.opened.isUnknown = value.isUnknown := by
  induction value using Value.induction with
  | step value ih =>
    rcases value with _ | ⟨element, _ | _ | _⟩ | ⟨element, _ | _ | _⟩ | ⟨element, _ | _ | _⟩ |
      ⟨name, base, validation, inner⟩
    case custom => exact ih inner List.mem_cons_self
    all_goals rfl

/-! ## Encoding -/

lemma itemsToWire_openedItems {values : List (Value ρ)}
    (h : ∀ value ∈ values, value.opened.toWire = value.toWire) :
    itemsToWire (openedItems values) = itemsToWire values := by
  induction values with
  | nil => rfl
  | cons value rest ih =>
    obtain ⟨hvalue, hrest⟩ := List.forall_mem_cons.1 h
    rw [openedItems, itemsToWire, itemsToWire, hvalue, ih hrest]

lemma entriesToWire_openedEntries {entries : List (String × Value ρ)}
    (h : ∀ value ∈ entries.map Prod.snd, value.opened.toWire = value.toWire) :
    entriesToWire (openedEntries entries) = entriesToWire entries := by
  induction entries with
  | nil => rfl
  | cons entry rest ih =>
    obtain ⟨hvalue, hrest⟩ := List.forall_mem_cons.1 h
    rw [openedEntries, entriesToWire, entriesToWire, hvalue, ih hrest]

/-- Opening does not change how a value is encoded. -/
lemma toWire_opened (value : Value ρ) : value.opened.toWire = value.toWire := by
  induction value using Value.induction with
  | step value ih =>
    cases value with
    | scalar kind state => rfl
    | list element state =>
      rcases state with _ | _ | items
      · rw [opened, toWire, toWire, Ty.wireTy_ofElement_map_plain]
      · rw [opened, toWire, toWire, Ty.wireTy_ofElement_map_plain]
      · have hitems : itemsToWire (openedItems items) = itemsToWire items :=
          itemsToWire_openedItems ih
        rw [opened, toWire, toWire, Ty.wireTy_ofElement_map_plain, hitems]
    | map element state =>
      rcases state with _ | _ | entries
      · rw [opened, toWire, toWire, Ty.wireTy_ofElement_map_plain]
      · rw [opened, toWire, toWire, Ty.wireTy_ofElement_map_plain]
      · have hentries : entriesToWire (openedEntries entries) = entriesToWire entries :=
          entriesToWire_openedEntries ih
        rw [opened, toWire, toWire, Ty.wireTy_ofElement_map_plain, hentries]
    | set element state =>
      rcases state with _ | _ | members
      · rw [opened, toWire, toWire, Ty.wireTy_ofElement_map_plain]
      · rw [opened, toWire, toWire, Ty.wireTy_ofElement_map_plain]
      · have hmembers : itemsToWire (openedItems members) = itemsToWire members :=
          itemsToWire_openedItems ih
        rw [opened, toWire, toWire, Ty.wireTy_ofElement_map_plain, hmembers]
    | custom name base validation inner =>
      rw [opened, toWire]
      exact ih inner List.mem_cons_self

/-- A value is encoded if the types that it carries are complete. -/
lemma exists_toWire_of_typesComplete {value : Value ρ} (h : value.typesComplete = true) :
    ∃ encoded, value.toWire = .ok encoded := by
  induction value using Value.induction with
  | step value ih =>
    obtain ⟨hcomplete, hparts⟩ := all_iff.1 h
    have hencoded : ∀ part ∈ value.parts, ∃ encoded, part.toWire = .ok encoded :=
      fun part hpart => ih part hpart (hparts part hpart)
    have hwire (shape : Shape) (element : Option (Ty ρ)) (h : element.any Ty.isComplete = true) :
        ∃ wire, (Ty.ofElement shape element).wireTy = .ok wire := by
      cases element with
      | none => cases h
      | some element => exact Ty.isComplete_iff.1 h
    cases value with
    | scalar kind state => exact ⟨_, rfl⟩
    | list element state =>
      obtain ⟨wire, hwire⟩ := hwire .list element hcomplete
      rcases state with _ | _ | items
      · exact ⟨_, toWire_nullCollection hwire⟩
      · exact ⟨_, toWire_unknownCollection hwire⟩
      · obtain ⟨encoded, h⟩ := exists_forall₂ hencoded
        exact ⟨_, toWire_list_known hwire h⟩
    | map element state =>
      obtain ⟨wire, hwire⟩ := hwire .map element hcomplete
      rcases state with _ | _ | entries
      · exact ⟨_, toWire_nullCollection hwire⟩
      · exact ⟨_, toWire_unknownCollection hwire⟩
      · have hentries : ∀ entry ∈ entries, ∃ w : String × Wire.Value,
            entry.1 = w.1 ∧ entry.2.toWire = .ok w.2 := fun entry hentry =>
          (hencoded entry.2 (List.mem_map_of_mem hentry)).imp' (entry.1, ·) fun _ h => ⟨rfl, h⟩
        obtain ⟨encoded, h⟩ := exists_forall₂ hentries
        exact ⟨_, toWire_map_known hwire h⟩
    | set element state =>
      obtain ⟨wire, hwire⟩ := hwire .set element hcomplete
      rcases state with _ | _ | members
      · exact ⟨_, toWire_nullCollection hwire⟩
      · exact ⟨_, toWire_unknownCollection hwire⟩
      · obtain ⟨encoded, h⟩ := exists_forall₂ hencoded
        exact ⟨_, toWire_set_known hwire h⟩
    | custom name base validation inner =>
      rw [toWire]
      exact hencoded inner List.mem_cons_self

end Value

/-! ## Results that agree -/

/-- The error of a conversion, and what it is with bases in place of custom types: the same, but
that a mismatch at a collection shows its element type with the bases in place. -/
inductive Error.PlainOf (ρ : Type) : Error → Error → Prop
  | same (error : Error) : PlainOf ρ error error
  | mismatch (value : String) (shape : Shape) (element : Ty ρ) (expected : Wire.Ty) :
    PlainOf ρ (.typeMismatch value (Ty.mismatchTarget shape element) expected)
      (.typeMismatch value (Ty.mismatchTarget shape element.plain) expected)

/-- Whether of two results both are there and the second is made of the first, or both are errors
and the second is what the first is with bases in place of custom types. -/
inductive Mirrors (ρ : Type) {α β : Type} (make : α → β) : Except Error α → Except Error β → Prop
  | ok (a : α) : Mirrors ρ make (.ok a) (.ok (make a))
  | error {error plain : Error} (h : error.PlainOf ρ plain) :
      Mirrors ρ make (.error error) (.error plain)

namespace Mirrors

variable {α β γ δ : Type}

lemma refl (result : Except Error α) : Mirrors ρ id result result := by
  cases result with
  | error error => exact .error (.same error)
  | ok a => exact .ok a

lemma of_eq {make : α → β} {a : α} {b : β} (h : make a = b) : Mirrors ρ make (.ok a) (.ok b) := by
  subst h
  exact .ok a

lemma bind {make : α → β} {make' : γ → δ} {result : Except Error α} {plain : Except Error β}
    {next : α → Except Error γ} {next' : β → Except Error δ} (h : Mirrors ρ make result plain)
    (hnext : ∀ a, Mirrors ρ make' (next a) (next' (make a))) :
    Mirrors ρ make' (result >>= next) (plain >>= next') := by
  cases h with
  | ok a => exact hnext a
  | error h => exact .error h

/-- What is put around the first result is of no matter if it is taken off again. -/
lemma wrap {make : α → β} {make' : γ → β} {around : α → γ} {result : Except Error α}
    {plain : Except Error β} (h : Mirrors ρ make result plain)
    (haround : ∀ a, make' (around a) = make a) :
    Mirrors ρ make' (result >>= fun a => pure (around a)) plain := by
  cases h with
  | ok a => exact .of_eq (haround a)
  | error h => exact .error h

lemma mapM {make : β → γ} {f : α → Except Error β} {f' : α → Except Error γ}
    (h : ∀ a, Mirrors ρ make (f a) (f' a)) (items : List α) :
    Mirrors ρ (List.map make) (items.mapM f) (items.mapM f') := by
  induction items with
  | nil => exact .ok []
  | cons item rest ih =>
    rw [List.mapM_cons, List.mapM_cons]
    exact (h item).bind fun b => ih.bind fun bs => .ok (b :: bs)

lemma traverse {make : β → γ} {f : α → Except Error β} {f' : α → Except Error γ}
    (h : ∀ a, Mirrors ρ make (f a) (f' a)) (entries : List (String × α)) :
    Mirrors ρ (Keyed.mapValues make) (Keyed.traverse f entries) (Keyed.traverse f' entries) := by
  induction entries with
  | nil => exact .ok []
  | cons entry rest ih =>
    rw [Keyed.traverse, Keyed.traverse]
    exact (h entry.2).bind fun b => ih.bind fun bs => .ok ((entry.1, b) :: bs)

end Mirrors

/-! ## Conversion -/

namespace Ty

lemma determine_mirrors (expected : Wire.Ty) (shape : Shape) (element : Ty ρ) (input : Wire.Value) :
    Mirrors ρ id (determine expected (mismatchTarget shape element) input)
      (determine expected (mismatchTarget shape element.plain) input) := by
  cases input with
  | untyped => exact .ok State.null
  | typed declared state =>
    rw [determine, determine]
    split
    · exact .ok state
    · exact .error (.mismatch _ shape element expected)

lemma convertContent_mirrors {shape : Shape} {element : Ty ρ} {below : Walk}
    (h : ∀ child,
      Mirrors ρ Value.opened (element.convert child below) (element.plain.convert child below))
    (input : Wire.Value) :
    Mirrors ρ Value.opened (convertContent shape element input below)
      (convertContent shape element.plain input below) := by
  cases shape with
  | list =>
    refine .bind (.refl _) fun items => .bind (.mapM h items) fun converted => ?_
    exact .of_eq (Value.opened_list_known (some element) converted)
  | map =>
    refine .bind (.refl _) fun entries => .bind (.traverse h entries) fun converted => ?_
    exact .of_eq (Value.opened_map_known (some element) converted)
  | set =>
    refine .bind (.refl _) fun members => .bind (.mapM h members) fun converted => ?_
    exact .of_eq (Value.opened_set_known (some element) converted)

/-- Conversion goes the same way with bases in place of custom types. -/
lemma convert_mirrors (ty : Ty ρ) (input : Wire.Value) (walk : Walk) :
    Mirrors ρ Value.opened (ty.convert input walk) (ty.plain.convert input walk) := by
  induction ty generalizing input walk with
  | scalar kind =>
    rw [plain]
    cases h : (scalar kind : Ty ρ).convert input walk with
    | error error => exact .error (.same error)
    | ok value =>
      obtain ⟨-, rfl⟩ := convert_scalar_eq_ok_iff.1 h
      exact .ok _
  | collection shape element ih =>
    have hwire : (collection shape element.plain).wireTy = (collection shape element).wireTy :=
      wireTy_plain (collection shape element)
    rw [plain, convert_collection, convert_collection, hwire]
    refine .bind (.refl _) fun expected => .bind (determine_mirrors expected shape element input) ?_
    rintro (_ | _ | payload)
    · exact .of_eq (Value.opened_nullCollection shape (some element))
    · exact .of_eq (Value.opened_unknownCollection shape (some element))
    · exact .bind (.refl _) fun below => convertContent_mirrors (fun child => ih child below) input
  | bare shape => exact .error (.same _)
  | custom name base validation ih =>
    rw [plain, convert]
    -- the wrapper is all that is added to what the base gives, and opening takes it off again
    exact (ih input walk).wrap fun inner => by rw [Value.opened]

/-- Custom types are transparent to conversion.  With bases in place of all custom types a type has
the same wire type, and under every limit the two convert the same wire values: what the one gives
is what the other gives with every wrapper opened, both are null, unknown or neither, and both are
encoded as the same wire value.  Where they fail the errors are the same, but that a mismatch at a
collection shows its element type, in which one may name custom types and the other has bases in
their place. -/
theorem ofWireValue_plain (ty : Ty ρ) (input : Wire.Value) (limits : Limits) :
    ty.wireTy = ty.plain.wireTy ∧
      ((∃ value, ty.ofWireValue input limits = .ok value) ↔
        ∃ plain, ty.plain.ofWireValue input limits = .ok plain) ∧
      (∀ value plain, ty.ofWireValue input limits = .ok value →
        ty.plain.ofWireValue input limits = .ok plain →
          plain = value.opened ∧ value.isNull = plain.isNull ∧ value.isUnknown = plain.isUnknown ∧
            ∃ encoded, value.toWire = .ok encoded ∧ plain.toWire = .ok encoded) ∧
      ∀ error plain, ty.ofWireValue input limits = .error error →
        ty.plain.ofWireValue input limits = .error plain → error.PlainOf ρ plain := by
  refine ⟨(wireTy_plain ty).symm, ?_⟩
  have hvalue (value : Value ρ) (h : ty.ofWireValue input limits = .ok value) :
      ∃ encoded, value.toWire = .ok encoded :=
    Value.exists_toWire_of_typesComplete (Value.typesComplete_of_ofWireValue h)
  generalize hresult : ty.ofWireValue input limits = result at hvalue ⊢
  generalize hplain : ty.plain.ofWireValue input limits = plain
  have h : Mirrors ρ Value.opened result plain := by
    rw [← hresult, ← hplain]
    exact convert_mirrors ty input (.start limits)
  cases h with
  | ok value =>
    obtain ⟨encoded, hencoded⟩ := hvalue value rfl
    refine ⟨⟨fun _ => ⟨_, rfl⟩, fun _ => ⟨_, rfl⟩⟩, ?_, fun _ _ herror => nomatch herror⟩
    rintro _ _ ⟨⟩ ⟨⟩
    exact ⟨rfl, value.isNull_opened.symm, value.isUnknown_opened.symm, encoded, hencoded,
      value.toWire_opened.trans hencoded⟩
  | error h =>
    refine ⟨⟨nofun, nofun⟩, fun _ _ hok => (nomatch hok), ?_⟩
    rintro _ _ ⟨⟩ ⟨⟩
    exact h

/-- A tag, which is a name, which is a string. -/
def tag : Ty Empty := .custom "Tag" (.custom "Name" (.scalar .string) .none) .ofBase

/-- Tags by key. -/
def tags : Ty Empty := .custom "Tags" (.collection .map tag) .none

/-- Two tags, of which one is missing. -/
def someTags : Wire.Value :=
  .known (.collection .map (.scalar .string)) (.map [("a", .scalar (.string "x")), ("b", .untyped)])

/-- The tags are converted either way.  A truth value is refused either way, once with a text that
names a custom type and once without. -/
theorem ofWireValue_plain_tags :
    let flag : Wire.Value := .scalar (.bool true)
    (∃ value plain, tags.ofWireValue someTags ⟨1⟩ = .ok value ∧
      tags.plain.ofWireValue someTags ⟨1⟩ = .ok plain ∧ plain = value.opened ∧
      value.isNull = plain.isNull ∧ value.isUnknown = plain.isUnknown ∧
      ∃ encoded, value.toWire = .ok encoded ∧ plain.toWire = .ok encoded) ∧
    ∃ error plain, tags.ofWireValue flag ⟨1⟩ = .error error ∧
      tags.plain.ofWireValue flag ⟨1⟩ = .error plain ∧ error.PlainOf Empty plain ∧
        error ≠ plain := by
  intro flag
  obtain ⟨value, hvalue⟩ : ∃ value, tags.ofWireValue someTags ⟨1⟩ = .ok value := ⟨_, rfl⟩
  obtain ⟨plain, hplain⟩ : ∃ plain, tags.plain.ofWireValue someTags ⟨1⟩ = .ok plain := ⟨_, rfl⟩
  have hmirrored := (ofWireValue_plain tags someTags ⟨1⟩).2.2.1 value plain hvalue hplain
  let refused (element : Ty Empty) : Error :=
    .typeMismatch flag.text (mismatchTarget .map element) (.collection .map (.scalar .string))
  have herror : tags.ofWireValue flag ⟨1⟩ = .error (refused tag) := rfl
  have hplainError : tags.plain.ofWireValue flag ⟨1⟩ = .error (refused tag.plain) := rfl
  have hmismatch := (ofWireValue_plain tags flag ⟨1⟩).2.2.2 _ _ herror hplainError
  have hnames : mismatchTarget .map tag ≠ mismatchTarget .map tag.plain := by decide
  exact ⟨⟨value, plain, hvalue, hplain, hmirrored⟩, refused tag, refused tag.plain,
    herror, hplainError, hmismatch, fun h => hnames (Error.typeMismatch.inj h).2.1⟩

end Ty

end TypedAttributes.Attribute
