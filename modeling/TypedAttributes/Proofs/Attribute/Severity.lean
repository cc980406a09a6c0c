/-
# The severity of findings

The validators of collections find nothing but errors.  Only a rule of a custom type may find
something that is not one.
-/
import TypedAttributes.Proofs.Attribute.Validation

namespace TypedAttributes.Attribute

variable {ρ : Type}

/-- Whether there are only errors among the findings. -/
def Diagnostics.AllErrors (findings : Diagnostics ρ) : Prop :=
  ∀ finding ∈ findings, finding.severity = .error

namespace Diagnostics.AllErrors

lemma nil : AllErrors ([] : Diagnostics ρ) := fun _ h => absurd h List.not_mem_nil

lemma single {finding : Diagnostic ρ} (h : finding.severity = .error) : AllErrors [finding] := by
  intro other hother
  rwa [List.mem_singleton.1 hother]

lemma append {first second : Diagnostics ρ} (h : first.AllErrors) (h' : second.AllErrors) :
    AllErrors (first ++ second) := by
  intro finding hfinding
  rcases List.mem_append.1 hfinding with hmem | hmem
  · exact h finding hmem
  · exact h' finding hmem

lemma ite {findings : Diagnostics ρ} (h : findings.AllErrors) (condition : Bool) :
    AllErrors (if condition then findings else []) := by
  cases condition
  · exact nil
  · exact h

end Diagnostics.AllErrors

namespace Validator

open Diagnostics (AllErrors)

variable {path : Path ρ} {walk : Walk}

/-- Whether a validator finds errors only. -/
def ErrorsOnly (validator : Validator ρ) : Prop :=
  ∀ input path walk, (validator input path walk).AllErrors

lemma errorsOnly_silent : (silent : Validator ρ).ErrorsOnly := fun _ _ _ => .nil

lemma allErrors_inspect {α : Type} {shape : Shape} {decode : Wire.Value → Except Wire.Error α}
    {input : Wire.Value} {content : α → Diagnostics ρ}
    (hcontent : ∀ found, (content found).AllErrors) :
    (inspect shape decode input path content).AllErrors := by
  rw [inspect.eq_def]
  split
  · exact .nil
  split
  · split
    · exact .nil
    · exact .nil
    · split
      · exact hcontent _
      · exact .single rfl
  · exact .single rfl

lemma allErrors_enter {inside : Walk → Diagnostics ρ}
    (hinside : ∀ below, (inside below).AllErrors) : (enter path walk inside).AllErrors := by
  rw [enter]
  split
  · exact hinside _
  · exact .single rfl

lemma allErrors_items {element : Validator ρ} (h : element.ErrorsOnly) (position : Nat)
    (found : List Wire.Value) : (items element path walk position found).AllErrors := by
  induction found generalizing position with
  | nil => exact .nil
  | cons item rest ih => exact ((h _ _ _).ite _).append (ih _)

lemma allErrors_values {element : Validator ρ} (h : element.ErrorsOnly)
    (entries : List (String × Wire.Value)) : (values element path walk entries).AllErrors := by
  rw [values]
  induction entries with
  | nil => exact .nil
  | cons entry rest ih => exact ((h _ _ _).ite _).append ih

lemma allErrors_repeats (address : Path ρ) (value : Wire.Value) (later : List Wire.Value) :
    (repeats address value later).AllErrors := by
  intro finding hfinding
  obtain ⟨again, -, rfl⟩ := List.mem_map.1 hfinding
  rfl

lemma allErrors_member {convert : Wire.Value → Walk → Except Error (Value ρ)}
    {element : Option (Validator ρ)} (h : (element.getD silent).ErrorsOnly) (value : Wire.Value)
    (later : List Wire.Value) : (member convert element path walk value later).AllErrors := by
  cases hconvert : convert value walk with
  | ok converted =>
    rw [member_of_convert hconvert]
    exact (h _ _ _).append (allErrors_repeats _ _ _)
  | error error =>
    rw [member, hconvert]
    have hfailure : (Diagnostic.conversionFailure path error).severity = .error := by
      cases error <;> rfl
    exact (AllErrors.single hfailure).append (allErrors_repeats _ _ _)

lemma allErrors_members {convert : Wire.Value → Walk → Except Error (Value ρ)}
    {element : Option (Validator ρ)} (h : (element.getD silent).ErrorsOnly)
    (found : List Wire.Value) : (members convert element path walk found).AllErrors := by
  induction found with
  | nil => exact .nil
  | cons value later ih => exact ((allErrors_member h value later).ite _).append ih

variable (element : Option (Validator ρ))

lemma errorsOnly_list (h : (element.getD silent).ErrorsOnly) : (list element).ErrorsOnly := by
  intro input path walk
  refine allErrors_inspect fun found => ?_
  cases element with
  | none => exact .nil
  | some validator => exact allErrors_enter fun below => allErrors_items h 0 found

lemma errorsOnly_map (h : (element.getD silent).ErrorsOnly) : (map element).ErrorsOnly := by
  intro input path walk
  refine allErrors_inspect fun found => ?_
  cases element with
  | none => exact .nil
  | some validator => exact allErrors_enter fun below => allErrors_values h found

lemma errorsOnly_set {convert : Wire.Value → Walk → Except Error (Value ρ)}
    (h : (element.getD silent).ErrorsOnly) : (set convert element).ErrorsOnly :=
  fun _ _ _ => allErrors_inspect fun found => allErrors_enter fun _ => allErrors_members h found

lemma errorsOnly_bareSet : (bareSet : Validator ρ).ErrorsOnly :=
  fun _ _ _ => allErrors_inspect fun _ => .single rfl

end Validator

namespace Ty

open Validator

lemma errorsOnly_findings {meaning : ρ → Validator ρ} {ty : Ty ρ} (hfree : ty.customFree = true) :
    (ty.findings meaning).ErrorsOnly := by
  induction ty with
  | scalar kind => exact errorsOnly_silent
  | collection shape element ih =>
    have helement : (element.findings meaning).ErrorsOnly := ih hfree
    cases shape with
    | list => exact errorsOnly_list _ helement
    | map => exact errorsOnly_map _ helement
    | set => exact errorsOnly_set _ helement
  | bare shape =>
    cases shape with
    | list => exact errorsOnly_list none errorsOnly_silent
    | map => exact errorsOnly_map none errorsOnly_silent
    | set => exact errorsOnly_bareSet
  | custom name base validation => cases hfree

end Ty

end TypedAttributes.Attribute
