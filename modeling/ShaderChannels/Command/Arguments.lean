import ShaderChannels.Path.Anchor

/-!
# Command-line arguments

The arguments choose one of three commands and set it up.  They are taken from left to right: a
request for help or for the version ends the reading where it stands, and so does the first
mistake.  Options may stand before or after the file and must not be repeated; after a lone `--`
all arguments are files.  Two options fall back on environment variables.
-/

namespace ShaderChannels

/-- What to do. -/
inductive Command where
  /-- Print the tokens of a source from an offset on. -/
  | tokens (file : String) (offset : Nat) (json : Bool)
  /-- Print the preview directives of a source. -/
  | directives (file : String) (json : Bool)
  /-- Bind the textures of a document. -/
  | resolve (document : String) (standalone : Bool) (scheme : String) (probe json : Bool)
deriving DecidableEq

namespace Command

/-- Why the reading of arguments ends without a command. -/
inductive Stop where
  /-- The arguments are mistaken. -/
  | usage
  | help
  | version
deriving DecidableEq

/-- The options a command knows. -/
structure Options where
  /-- Options without a value. -/
  flags : List String
  /-- Options with a value, each with a test of the value. -/
  valued : List (String × (String → Bool))

/-- What was read of the arguments of a command. -/
structure Given where
  file : Option String := none
  flags : List String := []
  values : List (String × String) := []
deriving DecidableEq, Inhabited

/-- A whole number of 64 bits, perhaps with a plus sign. -/
def offset? (s : String) : Option Nat :=
  let ds := match s.toList with
    | '+' :: r => r
    | r => r
  if ds.isEmpty || !ds.all Char.isDigit then none
  else
    let n := ds.foldl (fun n c ↦ 10 * n + (c.toNat - '0'.toNat)) 0
    if n < UInt64.size then some n else none

namespace Given

/-- Takes a file, of which there is one, with a name. -/
def addFile (g : Given) (s : String) : Except Stop Given :=
  if g.file.isSome || s.isEmpty then .error .usage else .ok { g with file := some s }

/-- Takes an option without a value. -/
def addFlag (g : Given) (name : String) : Except Stop Given :=
  if g.flags.contains name then .error .usage else .ok { g with flags := g.flags ++ [name] }

/-- Takes an option with its value. -/
def addValue (g : Given) (name : String) (test : String → Bool) (value : String) :
    Except Stop Given :=
  if (g.values.lookup name).isSome || !test value then .error .usage
  else .ok { g with values := g.values ++ [(name, value)] }

end Given

/-- What an argument looks like. -/
inductive Shape where
  /-- Two dashes and nothing else. -/
  | dashes
  /-- A long option, perhaps with a value after an equals sign. -/
  | long (name : String) (value : Option String)
  /-- Short options, by their first letter. -/
  | short (letter : Char)
  /-- Anything else. -/
  | plain
deriving DecidableEq

/-- The shape of an argument. -/
def Shape.of (s : String) : Shape :=
  match s.toList with
  | ['-', '-'] => .dashes
  | '-' :: '-' :: r =>
    let name := String.ofList (r.takeWhile (· != '='))
    match r.dropWhile (· != '=') with
    | [] => .long name none
    | _ :: value => .long name (some (String.ofList value))
  | '-' :: c :: _ => .short c
  | _ => .plain

/-- What the next argument is. -/
inductive Next where
  /-- Anything. -/
  | any
  /-- The value of an option, with its test. -/
  | value (name : String) (test : String → Bool)
  /-- A file, whatever it looks like. -/
  | file

/-- Reads the arguments of a command. -/
def read (options : Options) (next : Next) (g : Given) : List String → Except Stop Given
  | [] =>
    match next with
    | .value .. => .error .usage
    | .any | .file => .ok g
  | arg :: rest =>
    match next, Shape.of arg with
    | .file, _ => do read options .file (← g.addFile arg) rest
    | .value name test, .plain => do read options .any (← g.addValue name test arg) rest
    | .value .., _ => .error .usage
    | .any, .dashes => read options .file g rest
    | .any, .plain => do read options .any (← g.addFile arg) rest
    | .any, .short c => .error (if c = 'h' then .help else .usage)
    | .any, .long name value =>
      match options.valued.lookup name, value with
      | some test, some v => do read options .any (← g.addValue name test v) rest
      | some test, none => read options (.value name test) g rest
      | none, some _ => .error .usage
      | none, none =>
        if options.flags.contains name then do read options .any (← g.addFlag name) rest
        else .error (if name = "help" then .help else .usage)

/-- The file, which has to be given. -/
def Given.requiredFile (g : Given) : Except Stop String :=
  match g.file with
  | some f => .ok f
  | none => .error .usage

/-- The option that keeps local paths as written, or else its variable, which is `true` or
`false`. -/
def standalone (env : Environment) (g : Given) : Except Stop Bool :=
  if g.flags.contains "standalone" then .ok true
  else match env.lookup "TOYBIND_STANDALONE" with
    | none | some "false" => .ok false
    | some "true" => .ok true
    | some _ => .error .usage

/-- The scheme of references, or else its variable. -/
def scheme (env : Environment) (g : Given) : String :=
  ((g.values.lookup "scheme").or (env.lookup "TOYBIND_SCHEME")).getD "file://"

/-- Names of the commands. -/
def names : List String := ["tokens", "directives", "resolve"]

/-- Reads what follows the name of a command. -/
def ofName (env : Environment) (name : String) (args : List String) : Except Stop Command :=
  match name with
  | "tokens" => do
    let g ← read ⟨["json"], [("offset", fun v ↦ (offset? v).isSome)]⟩ .any {} args
    let file ← g.requiredFile
    return .tokens file (((g.values.lookup "offset").bind offset?).getD 0) (g.flags.contains "json")
  | "directives" => do
    let g ← read ⟨["json"], []⟩ .any {} args
    return .directives (← g.requiredFile) (g.flags.contains "json")
  | "resolve" => do
    let g ← read ⟨["standalone", "probe", "json"], [("scheme", fun _ ↦ true)]⟩ .any {} args
    let standalone ← standalone env g
    return .resolve (← g.requiredFile) standalone (scheme env g) (g.flags.contains "probe")
      (g.flags.contains "json")
  | "help" =>
    match args with
    | [] => .error .help
    | [topic] => .error (if ("help" :: names).contains topic then .help else .usage)
    | _ => .error .usage
  | _ => .error .usage

/-- Reads all arguments. -/
def ofArguments (env : Environment) : List String → Except Stop Command
  | [] => .error .usage
  | arg :: rest =>
    match Shape.of arg with
    | .plain => ofName env arg rest
    | .short 'h' | .long "help" none => .error .help
    | .short 'V' | .long "version" none => .error .version
    | _ => .error .usage

end Command

end ShaderChannels
