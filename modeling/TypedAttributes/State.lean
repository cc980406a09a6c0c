/-
# Null, unknown, known

A value is explicitly absent, not yet determined, or concrete.
-/
namespace TypedAttributes

universe u v

/-- What is known of a value. -/
inductive State (α : Type u) where
  /-- Explicitly absent. -/
  | null
  /-- Not yet determined. -/
  | unknown
  /-- Concrete content. -/
  | known (content : α)
deriving DecidableEq

namespace State

variable {α : Type u} {β : Type v}

/-- A value of which nothing is said is null. -/
instance : Inhabited (State α) := ⟨.null⟩

/-- Whether the value is null. -/
def isNull : State α → Bool
  | .null => true
  | _ => false

/-- Whether the value is not yet determined. -/
def isUnknown : State α → Bool
  | .unknown => true
  | _ => false

/-- Whether the value is concrete. -/
def isKnown : State α → Bool
  | .known _ => true
  | _ => false

/-- The content of a known value. -/
def known? : State α → Option α
  | .known content => some content
  | _ => none

/-- Transforms known content. -/
def map (f : α → β) : State α → State β
  | .null => .null
  | .unknown => .unknown
  | .known content => .known (f content)

/-- Transforms known content by a computation that may fail. -/
def traverse {ε : Type v} (f : α → Except ε β) : State α → Except ε (State β)
  | .null => .ok .null
  | .unknown => .ok .unknown
  | .known content => (f content).map .known

/-- Both null, both unknown, or both known with contents that `same` accepts. -/
def equal (same : α → α → Bool) : State α → State α → Bool
  | .null, .null => true
  | .unknown, .unknown => true
  | .known a, .known b => same a b
  | _, _ => false

/-- The text of a state, given that of known content. -/
def text (content : α → String) : State α → String
  | .null => "<null>"
  | .unknown => "<unknown>"
  | .known a => content a

end State

end TypedAttributes
