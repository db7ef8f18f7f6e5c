import ShaderChannels.Report.Sink

/-!
# Terminals

A terminal is a sink that prints each diagnostic on a line of its own, as editors understand it,
and counts them by severity.

The terminal is assumed to stay open.  One that is closed would refuse a report, and not count it;
here every line that is printed arrives, and every report is accepted.
-/

namespace ShaderChannels

/-- What a terminal has printed. -/
structure Terminal where
  lines : List String := []
  errors : Nat := 0
  warnings : Nat := 0
deriving DecidableEq, Inhabited

/-- A diagnostic as printed.  Lines are shown from one on.  The addition wraps, so the last line that
can be kept is shown as zero. -/
def Diagnostic.display (d : Diagnostic) (file : String) (severity : Severity) : String :=
  s!"{file}:{d.line + 1}: {severity.name}: {d.message}"

namespace Terminal

/-- Prints a report. -/
def print (t : Terminal) (r : Report) : Terminal :=
  let lines := t.lines ++ r.batch.diagnostics.map (·.display r.batch.file r.severity)
  match r.severity with
  | .error => { t with lines, errors := t.errors + r.batch.diagnostics.length }
  | .warning => { t with lines, warnings := t.warnings + r.batch.diagnostics.length }

/-- Accepts and prints everything. -/
def sink : Sink Terminal where
  offer t r := (true, t.print r)

@[simp] theorem sink_offer (t : Terminal) (r : Report) : sink.offer t r = (true, t.print r) := rfl

end Terminal

end ShaderChannels
