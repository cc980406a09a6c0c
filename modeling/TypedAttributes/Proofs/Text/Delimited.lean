/-
# Texts that show where they end

What is displayed is put together from parts that are written one behind the other.  The whole can
be told from its text when each part shows where it ends: a text that begins with the part, whatever
follows, begins with no other part and no other end of it.  `Delimited` says so of all things with a
property.  Quoted texts are delimited, as a quote between the quotes is escaped and no escape is the
beginning of another, and so are separated items up to a closing character, when the items are
delimited.
-/
import Mathlib.Data.List.Basic
import TypedAttributes.Text.Quoted

namespace TypedAttributes.Text

variable {α β : Type}

/-- Whether the characters of the things with a property show which thing it is and where it
ends. -/
def Delimited (P : α → Prop) (chars : α → List Char) : Prop :=
  ∀ ⦃a b rest rest'⦄, P a → P b → chars a ++ rest = chars b ++ rest' → a = b ∧ rest = rest'

section

variable {P : α → Prop} {Q : β → Prop} {chars : α → List Char} {chars' : β → List Char}

lemma Delimited.injOn (h : Delimited P chars) {a b : α} (ha : P a) (hb : P b)
    (heq : chars a = chars b) : a = b := by
  refine (h ha hb ?_ : a = b ∧ ([] : List Char) = []).1
  rw [heq]

lemma Delimited.mono {P' : α → Prop} (h : Delimited P chars) (himp : ∀ a, P' a → P a) :
    Delimited P' chars := by
  intro a b rest rest' ha hb heq
  exact h (himp a ha) (himp b hb) heq

/-- Where no text is the beginning of another, texts show where they end. -/
lemma delimited_of_prefix (h : ∀ a b, P a → P b → chars a <+: chars b → a = b) :
    Delimited P chars := by
  intro a b rest rest' ha hb heq
  obtain rfl : a = b := by
    obtain hprefix | hprefix := List.prefix_or_prefix_of_prefix (List.prefix_append _ rest)
      (heq ▸ List.prefix_append (chars b) rest')
    · exact h a b ha hb hprefix
    · exact (h b a hb ha hprefix).symm
  exact ⟨rfl, List.append_cancel_left heq⟩

/-- To show where things end it is enough to do so for what they are made from. -/
lemma Delimited.of_image {f : β → α} (h : Delimited Q fun b => chars (f b))
    (hP : ∀ a, P a → ∃ b, Q b ∧ f b = a) : Delimited P chars := by
  intro a a' rest rest' ha ha' heq
  obtain ⟨b, hb, rfl⟩ := hP a ha
  obtain ⟨b', hb', rfl⟩ := hP a' ha'
  obtain ⟨rfl, hrest⟩ := h hb hb' heq
  exact ⟨rfl, hrest⟩

lemma Delimited.append_right (h : Delimited P chars) (suffix : List Char) :
    Delimited P fun a => chars a ++ suffix := by
  intro a b rest rest' ha hb heq
  simp only [List.append_assoc] at heq
  obtain ⟨rfl, htail⟩ := h ha hb heq
  exact ⟨rfl, List.append_cancel_left htail⟩

lemma Delimited.pair (h : Delimited P chars) (h' : Delimited Q chars') :
    Delimited (fun pair : α × β => P pair.1 ∧ Q pair.2)
      fun pair => chars pair.1 ++ chars' pair.2 := by
  rintro ⟨a, a'⟩ ⟨b, b'⟩ rest rest' ⟨ha, ha'⟩ ⟨hb, hb'⟩ heq
  simp only [List.append_assoc] at heq
  obtain ⟨rfl, htail⟩ := h ha hb heq
  obtain ⟨rfl, hrest⟩ := h' ha' hb' htail
  exact ⟨rfl, hrest⟩

end

/-- Whether a text has a first character and that one passes a test. -/
def Opens (test : Char → Prop) (chars : List Char) : Prop := ∃ c rest, chars = c :: rest ∧ test c

section

variable {test : Char → Prop} {chars : List Char}

lemma Opens.append (h : Opens test chars) (rest : List Char) : Opens test (chars ++ rest) := by
  obtain ⟨c, tail, rfl, hc⟩ := h
  exact ⟨c, tail ++ rest, rfl, hc⟩

lemma opens_append_singleton {stop : Char} (h : ∀ c ∈ chars, test c) (hstop : test stop) :
    Opens test (chars ++ [stop]) := by
  cases chars with
  | nil => exact ⟨stop, [], rfl, hstop⟩
  | cons c rest => exact ⟨c, rest ++ [stop], rfl, h c List.mem_cons_self⟩

lemma Opens.mono {test' : Char → Prop} (h : Opens test chars) (himp : ∀ c, test c → test' c) :
    Opens test' chars := by
  obtain ⟨c, tail, rfl, hc⟩ := h
  exact ⟨c, tail, rfl, himp c hc⟩

lemma Opens.test_of_append {c : Char} {rest rest' : List Char} (h : Opens test chars)
    (heq : chars ++ rest = c :: rest') : test c := by
  obtain ⟨first, tail, rfl, hfirst⟩ := h
  obtain ⟨rfl, -⟩ := List.cons.inj heq
  exact hfirst

end

/-- A text ends where a character first occurs that is not in it. -/
lemma eq_of_append_stop {stop : Char} {text text' rest rest' : List Char} (h : stop ∉ text)
    (h' : stop ∉ text') (heq : text ++ stop :: rest = text' ++ stop :: rest') :
    text = text' ∧ rest = rest' := by
  have hend := congrArg (List.idxOf stop) heq
  rw [List.idxOf_append_of_notMem h, List.idxOf_append_of_notMem h'] at hend
  simp only [List.idxOf_cons_self, Nat.add_zero] at hend
  obtain ⟨htext, hrest⟩ := List.append_inj heq hend
  exact ⟨htext, (List.cons.inj hrest).2⟩

/-! ## Quoted text -/

/-- Hexadecimal digits tell the number. -/
lemma hexDigits_injective : Function.Injective (Nat.toDigits 16) := by
  have hdigit : ∀ m < 16, ∀ n < 16, m.digitChar = n.digitChar → m = n := by decide
  have hlonger (k : Nat) (c d : Char) : [c] ≠ Nat.toDigits 16 k ++ [d] := by
    intro h
    have hlength := congrArg List.length h
    have hpos : 0 < (Nat.toDigits 16 k).length := Nat.length_toDigits_pos
    simp only [List.length_append, List.length_singleton] at hlength
    omega
  intro m
  induction m using Nat.strongRecOn with
  | ind m ih =>
    intro n h
    rw [Nat.toDigits_eq_if (n := m) (by decide), Nat.toDigits_eq_if (n := n) (by decide)] at h
    split at h
    next hm =>
      split at h
      next hn => exact hdigit m hm n hn (List.singleton_inj.1 h)
      next hn => exact absurd h (hlonger _ _ _)
    next hm =>
      split at h
      next hn => exact absurd h.symm (hlonger _ _ _)
      next hn =>
        obtain ⟨hfirst, hlast⟩ := List.append_inj' h rfl
        have hquotient := ih (m / 16) (by omega) hfirst
        have hremainder :=
          hdigit (m % 16) (by omega) (n % 16) (by omega) (List.singleton_inj.1 hlast)
        omega

lemma brace_not_mem_hexDigits (n : Nat) : '\x7d' ∉ Nat.toDigits 16 n := by
  induction n using Nat.strongRecOn with
  | ind n ih =>
    rw [Nat.toDigits_eq_if (by decide)]
    split
    next => simp [Ne.symm (Nat.digitChar_ne '\x7d' rfl)]
    next hn => simp [ih (n / 16) (by omega), Ne.symm (Nat.digitChar_ne '\x7d' rfl)]

/-- The character for which a backslash and another character stand. -/
def shortEscape? : Char → Option Char
  | '"' => some '"'
  | '\\' => some '\\'
  | '0' => some '\x00'
  | 't' => some '\t'
  | 'r' => some '\r'
  | 'n' => some '\n'
  | _ => none

/-- A character is written as a short escape, by its number, or as it is. -/
lemma escape_cases (c : Char) :
    (∃ d, escape c = ['\\', d] ∧ shortEscape? d = some c) ∨
    escape c = '\\' :: 'u' :: '\x7b' :: (Nat.toDigits 16 c.toNat ++ ['\x7d']) ∨
    escape c = [c] ∧ c ≠ '"' ∧ c ≠ '\\' := by
  rw [escape]
  split_ifs with hquote hbackslash hnull htab hreturn hfeed hhidden
  · exact Or.inl ⟨'"', rfl, congrArg some hquote.symm⟩
  · exact Or.inl ⟨'\\', rfl, congrArg some hbackslash.symm⟩
  · exact Or.inl ⟨'0', rfl, congrArg some hnull.symm⟩
  · exact Or.inl ⟨'t', rfl, congrArg some htab.symm⟩
  · exact Or.inl ⟨'r', rfl, congrArg some hreturn.symm⟩
  · exact Or.inl ⟨'n', rfl, congrArg some hfeed.symm⟩
  · exact Or.inr (Or.inl rfl)
  · exact Or.inr (Or.inr ⟨rfl, hquote, hbackslash⟩)

/-- The written form of a character shows where it ends. -/
lemma delimited_escape : Delimited (fun _ => True) escape := by
  intro c c' rest rest' _ _ h
  have hshort : shortEscape? 'u' = none := rfl
  obtain ⟨d, hd, hc⟩ | hnumber | ⟨hplain, -, hbackslash⟩ := escape_cases c
  · rw [hd] at h
    obtain ⟨d', hd', hc'⟩ | hnumber' | ⟨hplain', -, hbackslash'⟩ := escape_cases c'
    · rw [hd'] at h
      obtain ⟨-, rfl, rfl⟩ := List.cons.inj h |>.imp_right List.cons.inj
      exact ⟨Option.some.inj (hc.symm.trans hc'), rfl⟩
    · rw [hnumber'] at h
      obtain ⟨-, rfl, -⟩ := List.cons.inj h |>.imp_right List.cons.inj
      rw [hshort] at hc
      cases hc
    · rw [hplain'] at h
      exact absurd (List.cons.inj h).1.symm hbackslash'
  · rw [hnumber] at h
    obtain ⟨d', hd', hc'⟩ | hnumber' | ⟨hplain', -, hbackslash'⟩ := escape_cases c'
    · rw [hd'] at h
      obtain ⟨-, rfl, -⟩ := List.cons.inj h |>.imp_right List.cons.inj
      rw [hshort] at hc'
      cases hc'
    · rw [hnumber'] at h
      simp only [List.cons_append, List.append_assoc, List.cons.injEq, true_and,
        List.nil_append] at h
      obtain ⟨hdigits, hrest⟩ :=
        eq_of_append_stop (brace_not_mem_hexDigits _) (brace_not_mem_hexDigits _) h
      exact ⟨Char.toNat_inj.1 (hexDigits_injective hdigits), hrest⟩
    · rw [hplain'] at h
      exact absurd (List.cons.inj h).1.symm hbackslash'
  · rw [hplain] at h
    obtain ⟨d', hd', -⟩ | hnumber' | ⟨hplain', -, -⟩ := escape_cases c'
    · rw [hd'] at h
      exact absurd (List.cons.inj h).1 hbackslash
    · rw [hnumber'] at h
      exact absurd (List.cons.inj h).1 hbackslash
    · rw [hplain'] at h
      exact List.cons.inj h

/-- No written form of a character begins with a quote. -/
lemma escape_append_ne_quote (c : Char) (rest rest' : List Char) :
    escape c ++ rest ≠ '"' :: rest' := by
  obtain ⟨d, hd, -⟩ | hnumber | ⟨hplain, hquote, -⟩ := escape_cases c
  · simp [hd]
  · simp [hnumber]
  · simpa [hplain] using fun h _ => hquote h

/-- The characters between quotes show where they end when the closing quote follows. -/
lemma delimited_escapes :
    Delimited (fun _ => True) fun chars : List Char => chars.flatMap escape ++ ['"'] := by
  intro chars
  induction chars with
  | nil =>
    intro chars' rest rest' _ _ h
    cases chars' with
    | nil => exact ⟨rfl, by simpa using h⟩
    | cons c' chars' =>
      simp only [List.flatMap_nil, List.flatMap_cons, List.append_assoc, List.nil_append,
        List.singleton_append] at h
      exact absurd h.symm (escape_append_ne_quote c' _ _)
  | cons c chars ih =>
    intro chars' rest rest' _ _ h
    cases chars' with
    | nil =>
      simp only [List.flatMap_nil, List.flatMap_cons, List.append_assoc, List.nil_append,
        List.singleton_append] at h
      exact absurd h (escape_append_ne_quote c _ _)
    | cons c' chars' =>
      simp only [List.flatMap_cons, List.append_assoc] at h
      obtain ⟨rfl, htail⟩ := delimited_escape trivial trivial h
      obtain ⟨rfl, hrest⟩ := ih trivial trivial (by simpa only [List.append_assoc] using htail)
      exact ⟨rfl, hrest⟩

lemma toList_quoted (text : String) :
    (quoted text).toList = '"' :: (text.toList.flatMap escape ++ ['"']) := by
  rw [quoted, String.toList_ofList]

lemma opens_quoted (text : String) : Opens (· = '"') (quoted text).toList :=
  ⟨'"', _, toList_quoted text, rfl⟩

/-- A quoted text shows where it ends. -/
lemma delimited_quoted : Delimited (fun _ => True) fun text => (quoted text).toList := by
  intro text text' rest rest' _ _ h
  simp only [toList_quoted, List.cons_append] at h
  obtain ⟨htext, hrest⟩ := delimited_escapes trivial trivial (List.cons.inj h).2
  exact ⟨String.toList_inj.1 htext, hrest⟩

/-! ## Separated items -/

section

variable {P : α → Prop} {text : α → String} {separator : String} {stop : Char}

lemma joined_cons (separator text : String) (texts : List String) :
    joined separator (text :: texts) =
    text ++ if texts = [] then "" else separator ++ joined separator texts := by
  cases texts with
  | nil => simp [joined]
  | cons next texts => simp [joined, String.append_assoc]

lemma opens_joined {test : Char → Prop} {items : List α}
    (h : ∀ a ∈ items, Opens test (text a).toList) (hstop : test stop) :
    Opens test ((joined separator (items.map text)).toList ++ [stop]) := by
  cases items with
  | nil => exact ⟨stop, [], rfl, hstop⟩
  | cons a items =>
    rw [List.map_cons, joined_cons, String.toList_append, List.append_assoc]
    exact (h a List.mem_cons_self).append _

/-- Items that show where they end do so when they are separated and followed by a closing
character, if neither an item nor the separator begins with that character. -/
lemma Delimited.joined (h : Delimited P fun a => (text a).toList)
    (hitem : ∀ a, P a → Opens (· ≠ stop) (text a).toList)
    (hseparator : Opens (· ≠ stop) separator.toList) :
    Delimited (fun items : List α => ∀ a ∈ items, P a)
      fun items => (Text.joined separator (items.map text)).toList ++ [stop] := by
  intro items
  induction items with
  | nil =>
    intro items' rest rest' _ hitems' heq
    cases items' with
    | nil => exact ⟨rfl, (List.cons.inj heq).2⟩
    | cons b items' =>
      simp only [List.map_cons, joined_cons, String.toList_append, List.append_assoc] at heq
      exact absurd rfl ((hitem b (hitems' b List.mem_cons_self)).test_of_append heq.symm)
  | cons a items ih =>
    intro items' rest rest' hitems hitems' heq
    cases items' with
    | nil =>
      simp only [List.map_cons, joined_cons, String.toList_append, List.append_assoc] at heq
      exact absurd rfl ((hitem a (hitems a List.mem_cons_self)).test_of_append heq)
    | cons b items' =>
      simp only [List.map_cons, joined_cons, String.toList_append, List.append_assoc] at heq
      obtain ⟨rfl, htail⟩ := h (hitems a List.mem_cons_self) (hitems' b List.mem_cons_self) heq
      -- behind the item comes the closing character or, if there are more items, the separator
      simp only [List.map_eq_nil_iff] at htail
      split at htail
      next hlast =>
        split at htail
        next hlast' => exact ⟨by rw [hlast, hlast'], (List.cons.inj htail).2⟩
        next hmore' =>
          rw [String.toList_append, List.append_assoc] at htail
          exact absurd rfl (hseparator.test_of_append htail.symm)
      next hmore =>
        split at htail
        next hlast' =>
          rw [String.toList_append, List.append_assoc] at htail
          exact absurd rfl (hseparator.test_of_append htail)
        next hmore' =>
          simp only [String.toList_append, List.append_assoc] at htail
          obtain ⟨rfl, hrest⟩ := ih (fun c hc => hitems c (List.mem_cons_of_mem a hc))
            (fun c hc => hitems' c (List.mem_cons_of_mem a hc))
            (by simpa only [List.append_assoc] using List.append_cancel_left htail)
          exact ⟨rfl, hrest⟩

end

end TypedAttributes.Text
