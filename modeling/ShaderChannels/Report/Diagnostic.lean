/-!
# Diagnostics

A diagnostic is a message about a line.  Those about one file come in a batch, and a batch with its
severity is a report.
-/

namespace ShaderChannels

/-- How bad it is. -/
inductive Severity where
  | error
  | warning
deriving DecidableEq, Inhabited

/-- The word for a severity. -/
def Severity.name : Severity → String
  | .error => "error"
  | .warning => "warning"

/-- A message about a line; lines start at zero. -/
structure Diagnostic where
  line : UInt32
  message : String
deriving DecidableEq, Inhabited

/-- Messages about one file. -/
structure Batch where
  file : String
  diagnostics : List Diagnostic
deriving DecidableEq, Inhabited

/-- A batch and how bad it is. -/
structure Report where
  severity : Severity
  batch : Batch
deriving DecidableEq, Inhabited

end ShaderChannels
