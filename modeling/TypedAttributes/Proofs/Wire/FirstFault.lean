/-
# The first fault of a payload

A payload is compared with a wire type by a recursion that goes down into the payload with the
element types and stops where something is wrong.  What that means is said here without the
recursion, by looking up nodes.  A payload is accepted when it has the kind of the type and every
node under it fits the node above: it declares the element type that is declared there, and its
payload, if it has one, is of the kind of that type.  When it is not accepted, some node is at
fault; `Value.faultAt?` says what is wrong with the node at the end of a way.  The error is that of
a node at fault before which, in document order, there is no other.

The comparison of a child is that of a whole value of which a type is expected, `Value.check`.  So
the values that are compared, from the whole down to the last child, are all compared by one
function, and what is said about it is proved by following a way down.
-/
import TypedAttributes.Wire.Decode
import TypedAttributes.Proofs.Wire.Checked
import TypedAttributes.Proofs.Wire.DocumentOrder

namespace TypedAttributes.Wire

namespace Value

/-! ## Faults -/

/-- What is wrong with a value of which a type is expected, apart from what is in it: it declares
another type or none, or else its payload is not of the kind of the type. -/
def fault? (expected : Ty) (value : Value) : Option Error :=
  if value.ty? = some expected then
    value.payload?.bind fun payload =>
      if payload.kind = expected.kind then none else some (.payloadMismatch expected payload.kind)
  else some (.elementMismatch expected value.ty?)

/-- What is wrong with the node to which a way leads.  Of a child the element type is expected of
the type that is declared above it. -/
def faultAt? : List Nat → Ty → Value → Option Error
  | [], expected, value => value.fault? expected
  | position :: rest, _, value =>
    (value.ty?.bind Ty.element?).bind fun element =>
      value.children[position]?.bind fun child => child.faultAt? rest element

/-- Compares a value with the type that is expected of it. -/
def check (expected : Ty) (value : Value) : Except Error Unit :=
  if value.ty? = some expected then
    match value.payload? with
    | some payload => payload.check expected
    | none => .ok ()
  else .error (.elementMismatch expected value.ty?)

end Value

lemma Payload.check_collection (shape : Shape) (element : Ty) (payload : Payload) :
    payload.check (.collection shape element) =
      if payload.kind = .collection shape then payload.children.forM (Value.check element)
      else .error (.payloadMismatch (.collection shape element) payload.kind) := by
  rw [check]
  rfl

namespace Value

variable {expected element : Ty} {value child node : Value}

lemma fault?_eq_none_iff : value.fault? expected = none ↔
    value.ty? = some expected ∧ ∀ payload, value.payload? = some payload →
      payload.kind = expected.kind := by
  rw [fault?]
  split
  next hty => simp [hty]
  next hty => simp [hty]

lemma faultAt?_cons (hty : value.ty? = some expected)
    (helement : expected.element? = some element) {position : Nat}
    (hchild : value.children[position]? = some child) (rest : List Nat) (any : Ty) :
    value.faultAt? (position :: rest) any = child.faultAt? rest element := by
  rw [faultAt?, hty, Option.bind_some, helement, Option.bind_some, hchild, Option.bind_some]

/-- A node at fault below a value is one in a child of which the element type is expected. -/
lemma exists_child_of_faultAt? {position : Nat} {rest : List Nat} {any : Ty}
    (hty : value.ty? = some expected) (helement : expected.element? = some element)
    (h : value.faultAt? (position :: rest) any ≠ none) :
    ∃ child, value.children[position]? = some child ∧ child.faultAt? rest element ≠ none := by
  cases hchild : value.children[position]? with
  | none =>
    rw [faultAt?, hchild] at h
    simp at h
  | some child => exact ⟨child, rfl, by rwa [faultAt?_cons hty helement hchild] at h⟩

/-! ## Comparison, node by node -/

lemma check_of_fault? {error : Error} (h : value.fault? expected = some error) :
    value.check expected = .error error := by
  rw [fault?] at h
  rw [check]
  split at h
  next hty =>
    rw [if_pos hty]
    obtain ⟨payload, hpayload, hfault⟩ := Option.bind_eq_some_iff.1 h
    rw [hpayload]
    split at hfault
    next => cases hfault
    next hkind =>
      cases hfault
      cases expected with
      | scalar kind => exact if_neg hkind
      | collection shape element => exact if_neg hkind
  next hty =>
    rw [if_neg hty]
    exact congrArg Except.error (Option.some.inj h)

lemma check_scalar {kind : Scalar.Kind} (h : value.fault? (.scalar kind) = none) :
    value.check (.scalar kind) = .ok () := by
  obtain ⟨hty, hkind⟩ := fault?_eq_none_iff.1 h
  rw [check, if_pos hty]
  cases hpayload : value.payload? with
  | none => rfl
  | some payload => exact if_pos (hkind payload hpayload)

/-- A value that is itself as expected is compared child by child. -/
lemma check_collection {shape : Shape} (h : value.fault? (.collection shape element) = none) :
    value.check (.collection shape element) = value.children.forM (check element) := by
  obtain ⟨hty, hkind⟩ := fault?_eq_none_iff.1 h
  rw [check, if_pos hty]
  cases hpayload : value.payload? with
  | none =>
    rw [children_of_payload?_eq_none hpayload]
    rfl
  | some payload =>
    rw [children_of_payload? hpayload]
    exact (payload.check_collection shape element).trans (if_pos (hkind payload hpayload))

/-- A value is as expected when it declares the type and its payload, if it has one, is accepted for
it. -/
lemma check_eq_ok_iff_payload : value.check expected = .ok () ↔
    value.ty? = some expected ∧ ∀ payload, value.payload? = some payload →
      payload.check expected = .ok () := by
  rw [check]
  split
  next hty => cases value.payload? <;> simp [hty]
  next hty => simp [hty]

/-- A value is as expected when it is so itself and its children are. -/
lemma check_eq_ok_iff : value.check expected = .ok () ↔
    value.fault? expected = none ∧
      ∀ child ∈ value.children, ∃ element, expected.element? = some element ∧
        child.check element = .ok () := by
  rw [fault?_eq_none_iff, check_eq_ok_iff_payload, and_assoc]
  refine and_congr_right fun _ => ?_
  cases hpayload : value.payload? with
  | none => simp [children_of_payload?_eq_none hpayload]
  | some payload =>
    simp only [Option.some.injEq, forall_eq', children_of_payload? hpayload,
      check_eq_ok_iff_payload]
    exact Payload.check_eq_ok_iff

/-- Every node of a value that is as expected is itself as is expected of the type that it
declares. -/
lemma check_node (h : value.check expected = .ok ()) {way : List Nat}
    (hnode : value.node? way = some node) :
    ∃ declared, node.ty? = some declared ∧ node.check declared = .ok () := by
  induction way generalizing value expected with
  | nil =>
    cases hnode
    exact ⟨expected, (fault?_eq_none_iff.1 (check_eq_ok_iff.1 h).1).1, h⟩
  | cons position rest ih =>
    obtain ⟨child, hchild, hnode⟩ := Option.bind_eq_some_iff.1 hnode
    obtain ⟨element, -, hcheck⟩ := (check_eq_ok_iff.1 h).2 child (List.mem_of_getElem? hchild)
    exact ih hcheck hnode

/-- In a value that is as expected no node is at fault. -/
lemma faultAt?_of_check (h : value.check expected = .ok ()) (way : List Nat) :
    value.faultAt? way expected = none := by
  induction way generalizing value expected with
  | nil => exact (check_eq_ok_iff.1 h).1
  | cons position rest ih =>
    obtain ⟨hfault, hchildren⟩ := check_eq_ok_iff.1 h
    cases hchild : value.children[position]? with
    | none => simp [faultAt?, hchild]
    | some child =>
      obtain ⟨element, helement, hcheck⟩ := hchildren child (List.mem_of_getElem? hchild)
      rw [faultAt?_cons (fault?_eq_none_iff.1 hfault).1 helement hchild]
      exact ih hcheck

/-! ## The first fault -/

/-- Whether an error is that of a node at fault before which, in document order, there is no
other. -/
def FirstFault (expected : Ty) (value : Value) (error : Error) : Prop :=
  ∃ way, value.faultAt? way expected = some error ∧
    ∀ other, value.faultAt? other expected ≠ none → other ≠ way → value.Before way other

/-- What is wrong with a value itself comes before anything in it. -/
lemma firstFault_of_fault? {error : Error} (h : value.fault? expected = some error) :
    value.FirstFault expected error := by
  have hroot : value.faultAt? [] expected ≠ none := by simp [faultAt?, h]
  have hfirst : value.IsFirst (fun way => value.faultAt? way expected ≠ none) [] :=
    isFirst_root hroot
  exact ⟨[], h, hfirst.2⟩

/-- In a value that is itself as expected, the first fault is that of the first child that is
not. -/
lemma FirstFault.below {error : Error} {before after : List Value}
    (hfault : value.fault? expected = none) (helement : expected.element? = some element)
    (hsplit : value.children = before ++ child :: after)
    (hbefore : ∀ earlier ∈ before, earlier.check element = .ok ())
    (h : child.FirstFault element error) : value.FirstFault expected error := by
  obtain ⟨way, hway, hfirst⟩ := h
  have hty := (fault?_eq_none_iff.1 hfault).1
  have hchild : value.children[before.length]? = some child := by simp [hsplit]
  have hbelow (rest : List Nat) :
      value.faultAt? (before.length :: rest) expected = child.faultAt? rest element :=
    faultAt?_cons hty helement hchild rest expected
  -- the earlier children are accepted, so nothing is at fault in them
  have hearlier (i : Nat) (hi : i < before.length) (rest : List Nat) :
      ¬ value.faultAt? (i :: rest) expected ≠ none := by
    intro hother
    obtain ⟨found, hfound, hother⟩ := exists_child_of_faultAt? hty helement hother
    rw [hsplit, List.getElem?_append_left hi] at hfound
    exact hother (faultAt?_of_check (hbefore found (List.mem_of_getElem? hfound)) rest)
  have hroot : ¬ value.faultAt? [] expected ≠ none := not_not_intro hfault
  have hinside :
      child.IsFirst (fun rest => value.faultAt? (before.length :: rest) expected ≠ none) way := by
    simp only [hbelow]
    exact ⟨by simp [hway], hfirst⟩
  have hwhole :
      value.IsFirst (fun way => value.faultAt? way expected ≠ none) (before.length :: way) :=
    .below hroot hearlier hchild hinside
  exact ⟨before.length :: way, (hbelow way).trans hway, hwhole.2⟩

/-- The error of a comparison is that of the first fault. -/
lemma firstFault_of_check {error : Error} (h : value.check expected = .error error) :
    value.FirstFault expected error := by
  induction expected generalizing value with
  | scalar kind =>
    cases hfault : value.fault? (.scalar kind) with
    | none => cases (check_scalar hfault).symm.trans h
    | some found =>
      obtain rfl := Except.error.inj ((check_of_fault? hfault).symm.trans h)
      exact firstFault_of_fault? hfault
  | collection shape element ih =>
    cases hfault : value.fault? (.collection shape element) with
    | none =>
      rw [check_collection hfault] at h
      obtain ⟨before, child, after, hsplit, hbefore, hchild⟩ := forM_eq_error_iff.1 h
      exact .below hfault rfl hsplit hbefore (ih hchild)
    | some found =>
      obtain rfl := Except.error.inj ((check_of_fault? hfault).symm.trans h)
      exact firstFault_of_fault? hfault

/-! ## Accepted values -/

/-- Whether every child of a node declares the element type that the node declares, and the payload
of every known child is of the kind of that type. -/
def ChildrenFit (node : Value) : Prop :=
  ∀ child ∈ node.children, ∃ declared element, node.ty? = some declared ∧
    declared.element? = some element ∧ child.ty? = some element ∧
      ∀ payload, child.payload? = some payload → payload.kind = element.kind

lemma childrenFit_of_check (h : value.check expected = .ok ()) : value.ChildrenFit := by
  intro child hchild
  obtain ⟨hfault, hchildren⟩ := check_eq_ok_iff.1 h
  obtain ⟨element, helement, hcheck⟩ := hchildren child hchild
  obtain ⟨hty, hkind⟩ := fault?_eq_none_iff.1 (check_eq_ok_iff.1 hcheck).1
  exact ⟨expected, element, (fault?_eq_none_iff.1 hfault).1, helement, hty, hkind⟩

/-- Where the children of every node fit, no node is at fault. -/
lemma faultAt?_of_childrenFit (hfault : value.fault? expected = none)
    (h : ∀ way node, value.node? way = some node → node.ChildrenFit) (way : List Nat) :
    value.faultAt? way expected = none := by
  induction way generalizing value expected with
  | nil => exact hfault
  | cons position rest ih =>
    cases hchild : value.children[position]? with
    | none => simp [faultAt?, hchild]
    | some child =>
      obtain ⟨declared, element, hty, helement, hfits⟩ :=
        h [] value rfl child (List.mem_of_getElem? hchild)
      rw [faultAt?_cons hty helement hchild]
      refine ih (fault?_eq_none_iff.2 hfits) fun way node hnode => h (position :: way) node ?_
      rw [node?, hchild, Option.bind_some, hnode]

/-- A value is as expected when it is so itself and the children of every node fit. -/
lemma check_eq_ok_iff_nodes : value.check expected = .ok () ↔
    value.fault? expected = none ∧ ∀ way node, value.node? way = some node → node.ChildrenFit := by
  constructor
  · refine fun h => ⟨(check_eq_ok_iff.1 h).1, fun way node hnode => ?_⟩
    obtain ⟨declared, -, hcheck⟩ := check_node h hnode
    exact childrenFit_of_check hcheck
  · rintro ⟨hfault, hnodes⟩
    cases h : value.check expected with
    | ok _ => rfl
    | error error =>
      obtain ⟨way, hway, -⟩ := firstFault_of_check h
      cases (faultAt?_of_childrenFit hfault hnodes way).symm.trans hway

/-- Whether the decoder of a kind succeeds on a value. -/
def DecodesAs (value : Value) : Kind → Prop
  | .scalar kind => ∃ content, value.asScalar kind = .ok content
  | .collection .list => ∃ items, value.asList = .ok items
  | .collection .map => ∃ entries, value.asMap = .ok entries
  | .collection .set => ∃ members, value.asSet = .ok members

lemma decodesAs_of_payload? {payload : Payload} (h : value.payload? = some payload) :
    value.DecodesAs payload.kind := by
  cases payload with
  | scalar content => cases content <;> exact ⟨_, by rw [asScalar, h]; rfl⟩
  | list items => exact ⟨items, by rw [asList, h]⟩
  | set members => exact ⟨members, by rw [asSet, h]⟩
  | map entries => exact ⟨entries, by rw [asMap, h]⟩

lemma check_known (ty : Ty) (payload : Payload) : (known ty payload).check ty = payload.check ty :=
  if_pos rfl

lemma fault?_known (ty : Ty) (payload : Payload) :
    (known ty payload).fault? ty = none ↔ payload.kind = ty.kind := by
  rw [fault?_eq_none_iff]
  exact ⟨fun h => h.2 payload rfl, fun h => ⟨rfl, fun _ heq => Option.some.inj heq ▸ h⟩⟩

/-- Faults with different errors are at different nodes. -/
lemma ne_of_faultAt? {ty : Ty} {way other : List Nat} {error error' : Error}
    (hother : value.faultAt? other ty = some error') (hway : value.faultAt? way ty = some error)
    (h : error' ≠ error) : other ≠ way := by
  rintro rfl
  exact h (Option.some.inj (hother.symm.trans hway))

/-- A payload is accepted for a type exactly when it has the kind of the type and under every node
of the value, at every depth, each child declares exactly the element type that the node declares
and is, if it is known, of the kind of that type.  Otherwise the error is what is wrong with the
first node at fault, in document order.  In an accepted value every known node declares a type and
is decoded by the decoder of the kind of that type. -/
theorem checked_isOk_iff_nodes (ty : Ty) (payload : Payload) :
    ((∃ value, checked ty payload = .ok value) ↔
      payload.kind = ty.kind ∧ ∀ way node, (known ty payload).node? way = some node →
        ∀ child ∈ node.children, ∃ declared element, node.ty? = some declared ∧
          declared.element? = some element ∧ child.ty? = some element ∧
            ∀ inner, child.payload? = some inner → inner.kind = element.kind) ∧
    (∀ error, checked ty payload = .error error →
      ∃ way, (known ty payload).faultAt? way ty = some error ∧
        ∀ other, (known ty payload).faultAt? other ty ≠ none → other ≠ way →
          (known ty payload).Before way other) ∧
    ∀ value, checked ty payload = .ok value → value = known ty payload ∧
      ∀ way node inner, value.node? way = some node → node.payload? = some inner →
        ∃ declared, node.ty? = some declared ∧ node.DecodesAs declared.kind := by
  refine ⟨?_, fun error h => ?_, fun value h => ?_⟩
  · have haccepted : (∃ value, checked ty payload = .ok value) ↔
        (known ty payload).check ty = .ok () := by
      simp only [checked_eq_ok_iff, exists_and_left, exists_eq, and_true, check_known]
    rw [haccepted, ← fault?_known ty payload]
    exact check_eq_ok_iff_nodes
  · obtain h | ⟨_, -, h⟩ := bind_eq_error_iff.1 h
    · exact firstFault_of_check ((check_known ty payload).trans h)
    · cases h
  · obtain ⟨hcheck, rfl⟩ := checked_eq_ok_iff.1 h
    refine ⟨rfl, fun way node inner hnode hinner => ?_⟩
    obtain ⟨declared, hty, hnode⟩ := check_node ((check_known ty payload).trans hcheck) hnode
    obtain ⟨-, hkind⟩ := fault?_eq_none_iff.1 (check_eq_ok_iff.1 hnode).1
    exact ⟨declared, hty, hkind inner hinner ▸ decodesAs_of_payload? hinner⟩

/-- Two lists of names by key, the second of which is what is given. -/
def namesByKey (other : Value) : Payload :=
  let name : Ty := .scalar .string
  .map [("a", .list name [.scalar (.string "x"), .unknown name]), ("b", other)]

/-- Names by key are accepted when the second list is missing.  When it is of three things, a number
that is declared to be a name, a number and nothing declared, each of them is at fault, and the
error is about the one that comes before the others.  Where nothing declared comes first, the error
says so. -/
theorem checked_isOk_iff_nodes_namesByKey :
    let name : Ty := .scalar .string
    let ty : Ty := .collection .map (.collection .list name)
    let good := namesByKey (.null (.collection .list name))
    let number : Payload := .scalar (.number .nan)
    let bad :=
      namesByKey (.list name [.known name number, .known (.scalar .number) number, .untyped])
    let worse := namesByKey (.list name [.untyped, .known name number])
    let error := Error.payloadMismatch name (.scalar .number)
    let undeclared := Error.elementMismatch name none
    checked ty good = .ok (known ty good) ∧
      (∀ way node inner, (known ty good).node? way = some node → node.payload? = some inner →
        ∃ declared, node.ty? = some declared ∧ node.DecodesAs declared.kind) ∧
      (checked ty bad = .error error ∧
        error.message = "payload of kind Number does not match wire type String" ∧
        ∃ way, (known ty bad).faultAt? way ty = some error ∧
          (known ty bad).Before way [1, 1] ∧ (known ty bad).Before way [1, 2]) ∧
      checked ty worse = .error undeclared ∧
        undeclared.message = "element of type untyped does not match element type String" ∧
        ∃ way, (known ty worse).faultAt? way ty = some undeclared ∧
          (known ty worse).Before way [1, 1] := by
  intro name ty good number bad worse error undeclared
  have hgood : checked ty good = .ok (known ty good) := rfl
  have hbad : checked ty bad = .error error := rfl
  have hworse : checked ty worse = .error undeclared := rfl
  have hnumber : (known ty bad).faultAt? [1, 1] ty =
      some (.elementMismatch name (some (.scalar .number))) := rfl
  have huntyped : (known ty bad).faultAt? [1, 2] ty = some (.elementMismatch name none) := rfl
  have hlater : (known ty worse).faultAt? [1, 1] ty = some error := rfl
  obtain ⟨way, hway, hfirst⟩ := (checked_isOk_iff_nodes ty bad).2.1 error hbad
  obtain ⟨way', hway', hfirst'⟩ := (checked_isOk_iff_nodes ty worse).2.1 undeclared hworse
  have hbefore : (known ty bad).Before way [1, 1] :=
    hfirst [1, 1] (hnumber.trans_ne (Option.some_ne_none _))
      (ne_of_faultAt? hnumber hway (by decide))
  have hbefore' : (known ty bad).Before way [1, 2] :=
    hfirst [1, 2] (huntyped.trans_ne (Option.some_ne_none _))
      (ne_of_faultAt? huntyped hway (by decide))
  have hbefore'' : (known ty worse).Before way' [1, 1] :=
    hfirst' [1, 1] (hlater.trans_ne (Option.some_ne_none _))
      (ne_of_faultAt? hlater hway' (by decide))
  exact ⟨hgood, ((checked_isOk_iff_nodes ty good).2.2 _ hgood).2,
    ⟨hbad, by decide, way, hway, hbefore, hbefore'⟩, hworse, by decide, way', hway', hbefore''⟩

end Value

end TypedAttributes.Wire
