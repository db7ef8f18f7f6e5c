import ShaderChannels.Command.Run
import ShaderChannels.Command.Survey
import ShaderChannels.Disk.Header

/-!
# The program

Looks at as much of the environment and the disk as the arguments ask for, runs the command on
that, and prints what comes of it.
-/

namespace ShaderChannels

/-- The values of those variables that have one. -/
def lookUp (names : List String) : IO (List (String × String)) :=
  names.filterMapM fun name ↦ return (← IO.getEnv name).map (name, ·)

/-- What a path leads to. -/
def inspect (path : String) : IO (String × Entry) := do
  try
    return (path, .file (.ofBytes (← IO.FS.readBinFile path)))
  catch
    | .inappropriateType _ 21 _ => return (path, .directory)
    | .inappropriateType .. => return (path, .blocked)
    | _ => return (path, .missing)

/-- The environment and the disk, as far as the arguments ask for them. -/
def survey (args : List String) : IO (Environment × Disk) := do
  let own ← lookUp Command.ownVariables
  match Command.ofArguments (.ofList own) args with
  | .error _ => return (.ofList own, .ofList [])
  | .ok command =>
    let start ← inspect command.file
    match command.document? (.ofList [start]) with
    | none => return (.ofList own, .ofList [start])
    | some (path, document) =>
      let env := .ofList (own ++ (← lookUp document.pathVariables))
      let images ← (document.anchoredPaths (.forDocument env path)).mapM inspect
      return (env, .ofList (start :: images))

end ShaderChannels

open ShaderChannels in
/-- Runs the program. -/
def main (args : List String) : IO UInt32 := do
  let (env, disk) ← survey args
  match Command.main? env disk args with
  | none =>
    IO.eprint Command.help
    return 2
  | some output =>
    IO.print output.stdout
    IO.eprint output.stderr
    return UInt32.ofNat output.exitCode
