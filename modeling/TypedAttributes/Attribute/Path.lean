/-
# Paths

A path leads from an attribute down into its value, so that a finding can point at a list index, a
map key or a set member.  The members of a set have no place, so a step to one holds its typed
value.
-/
import TypedAttributes.Attribute.Equality
import TypedAttributes.Attribute.Text

namespace TypedAttributes.Attribute

/-- One step of a path. -/
inductive Path.Step (ρ : Type) where
  /-- To the attribute of a name. -/
  | name (name : String)
  /-- To a position of a list. -/
  | index (position : Nat)
  /-- To the value of a map under a key. -/
  | key (key : String)
  /-- To the member of a set that is this value. -/
  | member (value : Value ρ)

/-- A path: its steps from the root. -/
structure Path (ρ : Type) where
  steps : List (Path.Step ρ)

namespace Path

variable {ρ : Type}

namespace Step

/-- The text of a step. -/
def text : Step ρ → String
  | .name label => label
  | .index position => "[" ++ toString position ++ "]"
  | .key entry => "[" ++ Text.quoted entry ++ "]"
  | .member value => "[Value(" ++ value.text ++ ")]"

/-- The text of a step after another one: a name is set off by a point. -/
def laterText : Step ρ → String
  | .name label => "." ++ label
  | step => step.text

/-- Equality of steps; members are compared as typed values. -/
def equal : Step ρ → Step ρ → Bool
  | .name a, .name b => a == b
  | .index a, .index b => a == b
  | .key a, .key b => a == b
  | .member a, .member b => a.equal b
  | _, _ => false

end Step

/-- The empty path, which leads to the whole value. -/
def root : Path ρ := ⟨[]⟩

/-- The path extended by a step. -/
def extend (path : Path ρ) (step : Step ρ) : Path ρ := ⟨path.steps ++ [step]⟩

/-- The last step of a path. -/
def last? (path : Path ρ) : Option (Step ρ) := path.steps.getLast?

/-- The path without its last step; the empty path has no parent. -/
def parent? (path : Path ρ) : Option (Path ρ) :=
  if path.steps.isEmpty then none else some ⟨path.steps.dropLast⟩

/-- The text of a path, such as `rule[0].ports["http"]`. -/
def text (path : Path ρ) : String :=
  match path.steps with
  | [] => ""
  | first :: rest => String.join (first.text :: rest.map Step.laterText)

/-- Equality of paths, step by step. -/
def equal (a b : Path ρ) : Bool :=
  a.steps.length == b.steps.length && (a.steps.zip b.steps).all fun (x, y) => x.equal y

end Path

end TypedAttributes.Attribute
