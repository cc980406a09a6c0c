/-
# Displayed values are told apart

Messages name a wire value by its displayed text alone.  The text of a type shows where it ends.
Behind it stand, between angle brackets, the word for a value that is null or unknown or the text of
the payload; no payload begins as one of the words.  How the text of a payload is to be read depends
on the type, so it is for the payloads that are accepted for one type that it shows, with the
closing bracket, where it ends.  This is proved by induction on the type: the texts of children show
where they end, and a text of separated items does so when its items do.
-/
import TypedAttributes.Wire.Text
import TypedAttributes.Proofs.Double.Text
import TypedAttributes.Proofs.Text.Delimited
import TypedAttributes.Proofs.Wire.FirstFault

namespace TypedAttributes.Wire

open Text

/-! ## Types -/

/-- What the text of a type of a kind begins with. -/
def Kind.opening : Kind → String
  | .scalar kind => kind.name
  | .collection shape => shape.name ++ "["

lemma Kind.delimited_opening :
    Delimited (fun _ => True) fun kind : Kind => kind.opening.toList := by
  refine delimited_of_prefix fun k k' _ _ => ?_
  rcases k with (_ | _ | _) | (_ | _ | _) <;> rcases k' with (_ | _ | _) | (_ | _ | _) <;> decide

namespace Ty

lemma exists_text_eq (ty : Ty) : ∃ rest, ty.text.toList = ty.kind.opening.toList ++ rest := by
  cases ty with
  | scalar kind => exact ⟨[], (List.append_nil _).symm⟩
  | collection shape element =>
    exact ⟨(element.text ++ "]").toList, by simp [text, kind, Kind.opening]⟩

lemma kind_eq_of_text {s t : Ty} {rest rest' : List Char}
    (h : s.text.toList ++ rest = t.text.toList ++ rest') : s.kind = t.kind := by
  obtain ⟨behind, hs⟩ := s.exists_text_eq
  obtain ⟨behind', ht⟩ := t.exists_text_eq
  rw [hs, ht, List.append_assoc, List.append_assoc] at h
  exact (Kind.delimited_opening trivial trivial h).1

/-- The text of a type shows where it ends. -/
lemma delimited_text : Delimited (fun _ => True) fun ty : Ty => ty.text.toList := by
  intro s
  induction s with
  | scalar kind =>
    intro t rest rest' _ _ h
    have hkind := kind_eq_of_text h
    cases t with
    | scalar kind' =>
      cases hkind
      exact ⟨rfl, List.append_cancel_left h⟩
    | collection shape element => cases hkind
  | collection shape element ih =>
    intro t rest rest' _ _ h
    have hkind := kind_eq_of_text h
    cases t with
    | scalar kind => cases hkind
    | collection shape' element' =>
      cases hkind
      simp only [text, String.toList_append, List.append_assoc] at h
      obtain ⟨rfl, htail⟩ :=
        ih trivial trivial (List.append_cancel_left (List.append_cancel_left h))
      exact ⟨rfl, List.append_cancel_left htail⟩

/-- The name of a type begins with an upper case letter. -/
lemma opens_text (ty : Ty) : Opens (fun c => c.isUpper = true) ty.text.toList := by
  obtain ⟨rest, h⟩ := ty.exists_text_eq
  rw [h]
  refine Opens.append ?_ rest
  rcases ty.kind with (_ | _ | _) | (_ | _ | _) <;> exact ⟨_, _, rfl, by decide⟩

end Ty

/-! ## Scalars -/

/-- A scalar of a kind is made from a content of that kind. -/
lemma exists_eq_wrap {content : Scalar} {kind : Scalar.Kind} (h : content.kind = kind) :
    ∃ inner : kind.Content, content = kind.wrap inner := by
  subst h
  cases content <;> exact ⟨_, rfl⟩

lemma not_mem_text_double (d : Double) : '>' ∉ d.text.toList := by
  cases d with
  | nan => decide
  | infinite negative => cases negative <;> decide
  | finite negative rank =>
    intro h
    exact absurd (Double.mem_text_finite h) (by decide)

/-- The text of a scalar of a kind shows, with the closing bracket, where it ends. -/
lemma delimited_wrap (kind : Scalar.Kind) :
    Delimited (fun _ => True) fun content : kind.Content =>
      (kind.wrap content).text.toList ++ ['>'] := by
  cases kind with
  | string => exact delimited_quoted.append_right ['>']
  | number =>
    intro a b rest rest' _ _ h
    simp only [List.append_assoc, List.singleton_append] at h
    obtain ⟨htext, hrest⟩ := eq_of_append_stop (not_mem_text_double a) (not_mem_text_double b) h
    exact ⟨Double.text_injective (String.toList_inj.1 htext), hrest⟩
  | bool => exact delimited_of_prefix (by decide)

/-! ## States -/

/-- Whether a character begins neither `null` nor `unknown`. -/
def NoWord (c : Char) : Prop := c ≠ 'n' ∧ c ≠ 'u'

instance (c : Char) : Decidable (NoWord c) := inferInstanceAs (Decidable (_ ∧ _))

lemma noWord_of_isUpper (c : Char) (h : c.isUpper = true) : NoWord c := by
  constructor
  · rintro rfl
    cases h
  · rintro rfl
    cases h

lemma noWord_of_quote (c : Char) (h : c = '"') : NoWord c := by
  subst h
  decide

lemma opens_text_double (d : Double) : Opens NoWord (d.text.toList ++ ['>']) := by
  cases d with
  | nan => exact ⟨'N', _, rfl, by decide⟩
  | infinite negative =>
    cases negative with
    | false => exact ⟨'i', _, rfl, by decide⟩
    | true => exact ⟨'-', _, rfl, by decide⟩
  | finite negative rank =>
    refine opens_append_singleton (fun c hc => ?_) (by decide)
    constructor
    · rintro rfl
      exact absurd (Double.mem_text_finite hc) (by decide)
    · rintro rfl
      exact absurd (Double.mem_text_finite hc) (by decide)

lemma opens_text_scalar (content : Scalar) : Opens NoWord (content.text.toList ++ ['>']) := by
  cases content with
  | string text => exact ((opens_quoted text).append ['>']).mono noWord_of_quote
  | number d => exact opens_text_double d
  | bool b =>
    cases b with
    | false => exact ⟨'f', _, rfl, by decide⟩
    | true => exact ⟨'t', _, rfl, by decide⟩

/-- What stands behind the opening bracket of a value with a type. -/
def displayedState : State Payload → List Char
  | .null => ['n', 'u', 'l', 'l', '>']
  | .unknown => ['u', 'n', 'k', 'n', 'o', 'w', 'n', '>']
  | .known payload => payload.text.toList ++ ['>']

namespace Value

lemma text_typed (ty : Ty) (state : State Payload) :
    (typed ty state).text.toList = ty.text.toList ++ '<' :: displayedState state := by
  cases state with
  | null =>
    have hword : "<null>".toList = '<' :: displayedState .null := by decide
    rw [text, String.toList_append, hword]
  | unknown =>
    have hword : "<unknown>".toList = '<' :: displayedState .unknown := by decide
    rw [text, String.toList_append, hword]
  | known payload => simp [text, displayedState]

lemma opens_text {value : Value} {ty : Ty} (h : value.ty? = some ty) :
    Opens (fun c => c.isUpper = true) value.text.toList := by
  cases value with
  | untyped => cases h
  | typed declared state =>
    rw [text_typed]
    exact declared.opens_text.append _

end Value

lemma opens_text_entry (entry : String × Value) :
    Opens (· = '"') (quoted entry.1 ++ ":" ++ entry.2.text).toList := by
  rw [String.toList_append, String.toList_append, List.append_assoc]
  exact (opens_quoted entry.1).append _

/-- The text of a payload whose children declare types does not begin as one of the words. -/
lemma Payload.opens_text {payload : Payload}
    (h : ∀ child ∈ payload.children, ∃ ty, child.ty? = some ty) :
    Opens NoWord (payload.text.toList ++ ['>']) := by
  have hchildren {items : List Value} (hitems : ∀ item ∈ items, ∃ ty, item.ty? = some ty) :
      Opens NoWord ((joined ", " (itemTexts items)).toList ++ ['>']) := by
    rw [itemTexts_eq]
    refine opens_joined (fun item hitem => ?_) (by decide)
    obtain ⟨ty, hty⟩ := hitems item hitem
    exact (Value.opens_text hty).mono noWord_of_isUpper
  cases payload with
  | scalar content => exact opens_text_scalar content
  | list items => exact hchildren h
  | set members => exact hchildren h
  | map entries =>
    rw [text, entryTexts_eq]
    exact opens_joined (fun entry _ => (opens_text_entry entry).mono noWord_of_quote) (by decide)

/-! ## Values -/

/-- Whether the texts of the payloads that are accepted for a type show, with the closing bracket,
where they end. -/
def Payload.Legible (ty : Ty) : Prop :=
  Delimited (fun payload : Payload => payload.check ty = .ok ()) fun payload =>
    payload.text.toList ++ ['>']

/-- Whether the texts of the values that are as expected of a type show where they end. -/
def Value.Legible (ty : Ty) : Prop :=
  Delimited (fun value : Value => value.check ty = .ok ()) fun value => value.text.toList

lemma delimited_displayedState {ty : Ty} (h : Payload.Legible ty) :
    Delimited (fun state : State Payload => ∀ payload, state.known? = some payload →
      payload.check ty = .ok ())
      displayedState := by
  have hopens {payload : Payload} (hcheck : payload.check ty = .ok ()) :
      Opens NoWord (payload.text.toList ++ ['>']) := by
    refine Payload.opens_text fun child hchild => ?_
    obtain ⟨element, -, hty, -⟩ := (Payload.check_eq_ok_iff.1 hcheck).2 child hchild
    exact ⟨element, hty⟩
  intro s s' rest rest' hs hs' heq
  cases s with
  | null =>
    cases s' with
    | null => exact ⟨rfl, List.append_cancel_left heq⟩
    | unknown => exact absurd (List.cons.inj heq).1 (by decide)
    | known payload => exact absurd rfl ((hopens (hs' payload rfl)).test_of_append heq.symm).1
  | unknown =>
    cases s' with
    | null => exact absurd (List.cons.inj heq).1 (by decide)
    | unknown => exact ⟨rfl, List.append_cancel_left heq⟩
    | known payload => exact absurd rfl ((hopens (hs' payload rfl)).test_of_append heq.symm).2
  | known payload =>
    cases s' with
    | null => exact absurd rfl ((hopens (hs payload rfl)).test_of_append heq).1
    | unknown => exact absurd rfl ((hopens (hs payload rfl)).test_of_append heq).2
    | known payload' =>
      obtain ⟨rfl, hrest⟩ := h (hs payload rfl) (hs' payload' rfl) heq
      exact ⟨rfl, hrest⟩

lemma Value.legible_of_payload {ty : Ty} (h : Payload.Legible ty) : Value.Legible ty := by
  refine Delimited.of_image (f := typed ty)
    (Q := fun state => ∀ payload, state.known? = some payload → payload.check ty = .ok ()) ?_ ?_
  · intro s s' rest rest' hs hs' heq
    simp only [text_typed, List.append_assoc] at heq
    exact delimited_displayedState h hs hs' (List.cons.inj (List.append_cancel_left heq)).2
  · intro value hvalue
    obtain ⟨hty, hpayload⟩ := check_eq_ok_iff_payload.1 hvalue
    cases value with
    | untyped => cases hty
    | typed declared state =>
      cases hty
      exact ⟨state, hpayload, rfl⟩

/-! ## Payloads -/

namespace Payload

lemma check_collection_eq_ok_iff {shape : Shape} {element : Ty} {payload : Payload} :
    payload.check (.collection shape element) = .ok () ↔
      payload.kind = .collection shape ∧
        ∀ child ∈ payload.children, child.check element = .ok () := by
  rw [check_collection, ← forM_eq_ok_iff]
  split
  next hkind => simp [hkind]
  next hkind => simp [hkind]

section

variable {element : Ty} (h : Value.Legible element)

include h

lemma delimited_items :
    Delimited (fun items : List Value => ∀ item ∈ items, item.check element = .ok ())
    fun items => (joined ", " (itemTexts items)).toList ++ ['>'] := by
  simp only [itemTexts_eq]
  refine h.joined (fun item hitem => ?_) ⟨',', _, rfl, by decide⟩
  have hupper := Value.opens_text (Value.check_eq_ok_iff_payload.1 hitem).1
  refine hupper.mono ?_
  rintro c hc rfl
  cases hc

lemma delimited_entries :
    Delimited (fun entries : List (String × Value) => ∀ entry ∈ entries,
      entry.2.check element = .ok ())
      fun entries => (joined ", " (entryTexts entries)).toList ++ ['>'] := by
  simp only [entryTexts_eq]
  refine Delimited.joined ?_ (fun entry _ => ?_) ⟨',', _, rfl, by decide⟩
  · simp only [String.toList_append]
    exact ((delimited_quoted.append_right _).pair h).mono fun entry hentry => ⟨trivial, hentry⟩
  · refine (opens_text_entry entry).mono ?_
    rintro c rfl
    decide

lemma legible_collection (shape : Shape) : Legible (.collection shape element) := by
  cases shape with
  | list =>
    refine Delimited.of_image (f := .list) (delimited_items h) fun payload hpayload => ?_
    obtain ⟨hkind, hchildren⟩ := check_collection_eq_ok_iff.1 hpayload
    exact ⟨payload.children, hchildren, (eq_list_of_kind hkind).symm⟩
  | map =>
    refine Delimited.of_image (f := .map) (delimited_entries h) fun payload hpayload => ?_
    obtain ⟨hkind, hchildren⟩ := check_collection_eq_ok_iff.1 hpayload
    exact ⟨payload.entries, fun entry hentry => hchildren _ (mem_children_of_mem_entries hentry),
      (eq_map_of_kind hkind).symm⟩
  | set =>
    refine Delimited.of_image (f := .set) (delimited_items h) fun payload hpayload => ?_
    obtain ⟨hkind, hchildren⟩ := check_collection_eq_ok_iff.1 hpayload
    exact ⟨payload.children, hchildren, (eq_set_of_kind hkind).symm⟩

end

lemma legible_scalar (kind : Scalar.Kind) : Legible (.scalar kind) := by
  refine Delimited.of_image (f := fun content => .scalar (kind.wrap content)) (delimited_wrap kind)
    fun payload hpayload => ?_
  obtain ⟨scalar, rfl, hkind⟩ := eq_scalar_of_kind (Payload.check_eq_ok_iff.1 hpayload).1
  obtain ⟨content, rfl⟩ := exists_eq_wrap hkind
  exact ⟨content, trivial, rfl⟩

/-- The texts of accepted payloads show, with the closing bracket, where they end. -/
lemma legible (ty : Ty) : Legible ty := by
  induction ty with
  | scalar kind => exact legible_scalar kind
  | collection shape element ih => exact legible_collection (Value.legible_of_payload ih) shape

end Payload

namespace Value

/-- Whether a value is null, not determined, or known with a payload that is accepted for its
type. -/
def Displayable (value : Value) : Prop :=
  value.isNull = true ∨ value.isKnown = false ∨ ∃ ty payload, checked ty payload = .ok value

lemma check_of_displayable {ty : Ty} {state : State Payload} (h : (typed ty state).Displayable) :
    (typed ty state).check ty = .ok () := by
  refine check_eq_ok_iff_payload.2 ⟨rfl, fun payload hpayload => ?_⟩
  obtain hnull | hunknown | ⟨declared, inner, hchecked⟩ := h
  · cases state <;> cases hnull
    cases hpayload
  · cases state <;> cases hunknown
    cases hpayload
  · obtain ⟨hcheck, heq⟩ := checked_eq_ok_iff.1 hchecked
    cases heq
    cases hpayload
    exact hcheck

lemma text_untyped_ne (ty : Ty) (state : State Payload) : untyped.text ≠ (typed ty state).text := by
  intro h
  have hword : untyped.text.toList = 'u' :: "ntyped<null>".toList := by decide
  have hupper : Opens (fun c => c.isUpper = true) (typed ty state).text.toList := opens_text rfl
  have hfirst := hupper.test_of_append ((List.append_nil _).trans (h ▸ hword))
  exact absurd hfirst (by decide)

/-- The displayed text of a type tells the type.  The displayed text of a value tells the value, if
the value is null, not determined, or known with a payload that is accepted for its type. -/
theorem text_unambiguous :
    (∀ s t : Ty, s.text = t.text → s = t) ∧
      ∀ a b : Value, a.Displayable → b.Displayable → a.text = b.text → a = b := by
  refine ⟨fun s t h => Ty.delimited_text.injOn trivial trivial (congrArg String.toList h), ?_⟩
  intro a b ha hb h
  cases a with
  | untyped =>
    cases b with
    | untyped => rfl
    | typed ty state => exact absurd h (text_untyped_ne ty state)
  | typed ty state =>
    cases b with
    | untyped => exact absurd h.symm (text_untyped_ne ty state)
    | typed ty' state' =>
      have hchars := congrArg String.toList h
      rw [text_typed, text_typed] at hchars
      obtain ⟨rfl, -⟩ := Ty.delimited_text trivial trivial hchars
      exact (legible_of_payload (Payload.legible ty)).injOn (check_of_displayable ha)
        (check_of_displayable hb)
        (congrArg String.toList h)

/-- Lists of numbers by name, of which one number is given by a decimal. -/
def numbersByName (d : Decimal) : Payload :=
  let numbers : List Value := [.scalar (.number .nan), .scalar (.number (.ofDecimal true d))]
  .map [("\">, ", .null (.collection .list (.scalar .number))),
    ("b", .list (.scalar .number) numbers)]

/-- Two decimals are displayed as `-0.1`, so they have been read as one number.  A name that looks
like two names is not displayed as two names are. -/
theorem text_unambiguous_numbersByName :
    let ty : Ty := .collection .map (.collection .list (.scalar .number))
    let a := known ty (numbersByName ⟨1, -1⟩)
    let b := known ty (numbersByName ⟨10000000000000000555, -20⟩)
    let shown :=
      "Map[List[Number]]<\"\\\">, \":List[Number]<null>, " ++
        "\"b\":List[Number]<Number<NaN>, Number<-0.1>>>"
    let one : Value := .list (.scalar .string) [.scalar (.string "a\">, String<\"b")]
    let two : Value := .list (.scalar .string) [.scalar (.string "a"), .scalar (.string "b")]
    a.Displayable ∧ b.Displayable ∧ a.text = shown ∧ b.text = shown ∧ a = b ∧
      one.Displayable ∧ two.Displayable ∧ one.text ≠ two.text := by
  intro ty a b shown one two
  have hdisplayable {ty : Ty} {payload : Payload} (h : payload.check ty = .ok ()) :
      (known ty payload).Displayable :=
    Or.inr (Or.inr ⟨ty, payload, checked_eq_ok_iff.2 ⟨h, rfl⟩⟩)
  have ha : a.Displayable := hdisplayable rfl
  have hb : b.Displayable := hdisplayable rfl
  have hone : one.Displayable := hdisplayable rfl
  have htwo : two.Displayable := hdisplayable rfl
  have hashown : a.text = shown := by decide +kernel
  have hbshown : b.text = shown := by decide +kernel
  refine ⟨ha, hb, hashown, hbshown, text_unambiguous.2 a b ha hb (hashown.trans hbshown.symm),
    hone, htwo, ?_⟩
  intro h
  have heq : one = two := text_unambiguous.2 one two hone htwo h
  have hlength := congrArg (fun value : Value => value.children.length) heq
  exact absurd hlength (by decide)

/-- A payload that is not accepted can have the text of another one. -/
example : (known (.collection .list (.scalar .bool)) (.list [])).text =
    (known (.collection .list (.scalar .bool)) (.set [])).text := rfl

end Value

end TypedAttributes.Wire
