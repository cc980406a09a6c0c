/-
# Limits of nesting

Conversion and validation walk down a value and enter collections in it.  A walk counts the
collections it has entered and refuses to enter more of them than its limit.
-/
import TypedAttributes.Attribute.Error

namespace TypedAttributes.Attribute

/-- Limits on conversion and validation. -/
structure Limits where
  /-- The number of nested collections that may be entered. -/
  maxDepth : Nat := 64
deriving DecidableEq

/-- A place in a walk down a value. -/
structure Walk where
  maxDepth : Nat
  /-- The number of collections entered so far. -/
  depth : Nat
deriving DecidableEq

namespace Walk

/-- The walk at the root of a value. -/
def start (limits : Limits) : Walk := ⟨limits.maxDepth, 0⟩

/-- Enters one more collection. -/
def descend (walk : Walk) : Except Error Walk :=
  if walk.maxDepth ≤ walk.depth then .error (.depthExceeded walk.maxDepth)
  else .ok { walk with depth := walk.depth + 1 }

end Walk

end TypedAttributes.Attribute
