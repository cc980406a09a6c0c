/-
# Diagnostics

Validation does not stop at a problem.  Everything found is collected in order, each finding with a
path to what it is about.
-/
import TypedAttributes.Attribute.Path

namespace TypedAttributes.Attribute

/-- How bad a finding is. -/
inductive Severity where
  /-- The value cannot be used. -/
  | error
  /-- The value can be used but is suspicious. -/
  | warning
deriving DecidableEq

/-- The name of a severity in displayed text. -/
def Severity.text : Severity → String
  | .error => "error"
  | .warning => "warning"

/-- A finding. -/
structure Diagnostic (ρ : Type) where
  severity : Severity
  summary : String
  detail : String
  /-- What the finding is about, if it is about an attribute. -/
  path? : Option (Path ρ)

namespace Diagnostic

variable {ρ : Type}

/-- An error at a path. -/
def errorAt (path : Path ρ) (summary detail : String) : Diagnostic ρ :=
  ⟨.error, summary, detail, some path⟩

/-- A warning at a path. -/
def warningAt (path : Path ρ) (summary detail : String) : Diagnostic ρ :=
  ⟨.warning, summary, detail, some path⟩

/-- Whether a finding is an error. -/
def isError (diagnostic : Diagnostic ρ) : Bool := diagnostic.severity = .error

/-- The same finding at another path. -/
def relocate (path : Path ρ) (diagnostic : Diagnostic ρ) : Diagnostic ρ :=
  { diagnostic with path? := some path }

/-- The text of a finding, such as `error: Bad at tags[2]: oops`. -/
def text (diagnostic : Diagnostic ρ) : String :=
  diagnostic.severity.text ++ ": " ++ diagnostic.summary ++
    (match diagnostic.path? with
      | some path => " at " ++ path.text
      | none => "") ++
    (if diagnostic.detail.isEmpty then "" else ": " ++ diagnostic.detail)

end Diagnostic

/-- Findings in the order in which they were made. -/
abbrev Diagnostics (ρ : Type) := List (Diagnostic ρ)

namespace Diagnostics

variable {ρ : Type}

/-- Whether there is an error among the findings. -/
def hasError (diagnostics : Diagnostics ρ) : Bool := diagnostics.any Diagnostic.isError

/-- The errors among the findings. -/
def errors (diagnostics : Diagnostics ρ) : Diagnostics ρ := diagnostics.filter Diagnostic.isError

/-- The findings on lines of their own. -/
def text (diagnostics : Diagnostics ρ) : String :=
  Text.joined "\n" (diagnostics.map Diagnostic.text)

end Diagnostics

end TypedAttributes.Attribute
