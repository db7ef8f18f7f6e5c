import ShaderChannels.Command.Arguments
import ShaderChannels.Command.Display
import ShaderChannels.Document.Load
import ShaderChannels.Json.Forms
import ShaderChannels.Report.Terminal

/-!
# Running commands

What a command prints and how it ends.  Running is a function of the arguments, the environment
and the disk.

Output is assumed to arrive: a write that fails is no outcome of a run.  What is logged is not
output, and is left out.
-/

namespace ShaderChannels.Command

/-- An error and what caused it, outermost first. -/
structure Failure where
  message : String
  causes : List String := []
deriving DecidableEq

/-- Lines of text, each with its line end. -/
def lines (ls : List String) : String := String.join (ls.map (· ++ "\n"))

/-- An error as printed.  Several causes are numbered. -/
def Failure.display (f : Failure) : String :=
  lines (("Error: " ++ f.message) ::
    match f.causes with
    | [] => []
    | [c] => ["", "Caused by:", "    " ++ c]
    | cs => ["", "Caused by:"] ++ cs.zipIdx.map fun (c, i) ↦ s!"    {i}: {c}")

/-- What a command printed and how it ended. -/
structure Output where
  stdout : String := ""
  /-- Diagnostics, one on each line. -/
  diagnostics : List String := []
  failure : Option Failure := none
deriving DecidableEq

namespace Output

/-- The exit code. -/
def exitCode (o : Output) : Nat := if o.failure.isSome then 1 else 0

/-- What is printed as error output: diagnostics, then the error with its causes. -/
def stderr (o : Output) : String :=
  lines o.diagnostics ++
    match o.failure with
    | none => ""
    | some f => f.display

/-- Nothing but an error. -/
def fail (message cause : String) : Output := { failure := some ⟨message, [cause]⟩ }

end Output

/-- A source with its text. -/
def withSource (disk : Disk) (file : String) (use : List Char → Output) : Output :=
  match (disk file).read with
  | .error e => .fail s!"failed to read shader source '{file}'" e.message
  | .ok text => use text.toList

/-- Prints the tokens of a source. -/
def runTokens (disk : Disk) (file : String) (offset : Nat) (json : Bool) : Output :=
  withSource disk file fun text ↦
    match Lexer.at? text offset with
    | .error e => .fail s!"cannot start lexing '{file}'" e.message
    | .ok l =>
      let row (t : Token) (after : Lexer) : String :=
        if json then (t.toJson after.lastLine after.lastSpan).compact
        else t.display after.lastLine after.lastSpan
      { stdout := lines (l.deliveries.filterMap fun (t, after) ↦ t.map (row · after)) }

/-- Prints the directives of a source. -/
def runDirectives (disk : Disk) (file : String) (json : Bool) : Output :=
  withSource disk file fun text ↦
    let found := Directive.ofText text
    { stdout :=
        if json then lines [(Json.array (found.map Directive.toJson)).pretty 0]
        else lines (found.map Directive.display) }

/-- Binds the textures of a document, prints the operations and, if asked, measures images. -/
def runResolve (env : Environment) (disk : Disk) (document : String) (standalone : Bool)
    (scheme : String) (probe json : Bool) : Output :=
  match Document.load disk document with
  | .error e => .fail s!"failed to load shader document '{document}'" e.message
  | .ok d =>
    let resolver := PathResolver.forDocument env document
    let host := Host.onDisk disk resolver scheme
    let resolution := Binder.resolve { host, standalone } d.buffers
    let (_, terminal) := resolution.publish Terminal.sink {}
    let (sizes, resolution, terminal) :=
      if probe then (Probe.mk d resolver host disk).run resolution Terminal.sink terminal
      else ([], resolution, terminal)
    { stdout :=
        if json then lines [resolution.toJson.pretty 0]
        else lines (resolution.display d ++ sizes.map fun (id, size) ↦ size.display id)
      diagnostics := terminal.lines
      failure :=
        if terminal.errors = 0 then none
        else some ⟨s!"{terminal.errors} texture input(s) could not be bound", []⟩ }

/-- Runs a command. -/
def run (env : Environment) (disk : Disk) : Command → Output
  | .tokens file offset json => runTokens disk file offset json
  | .directives file json => runDirectives disk file json
  | .resolve document standalone scheme probe json =>
    runResolve env disk document standalone scheme probe json

/-- Name and version. -/
def version : String := "toybind 0.1.0"

/-- How to use the program. -/
def help : String := lines
  ["Lex annotated ShaderToy GLSL and resolve texture channel bindings", "",
    "Usage: toybind <COMMAND>", "",
    "Commands:",
    "  tokens FILE [--offset CHARS] [--json]",
    "  directives FILE [--json]",
    "  resolve DOCUMENT [--standalone] [--scheme PREFIX] [--probe] [--json]"]

/-- Runs the program with its arguments.  Mistaken arguments have no output to speak of. -/
def main? (env : Environment) (disk : Disk) (args : List String) : Option Output :=
  match ofArguments env args with
  | .ok command => some (run env disk command)
  | .error .help => some { stdout := help }
  | .error .version => some { stdout := lines [version] }
  | .error .usage => none

end ShaderChannels.Command
