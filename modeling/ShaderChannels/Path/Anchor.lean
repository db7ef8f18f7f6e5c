import ShaderChannels.Path.Join
import ShaderChannels.Path.Template

/-!
# Anchoring paths

Paths of a document are expanded as a shell would expand them and then seen from the directory of
the document.  Variables are filled in first, from left to right, and what they are filled with is
not looked at again; then a tilde at the front becomes the home directory.
-/

namespace ShaderChannels

/-- What a program knows of its surroundings besides the disk. -/
structure Environment where
  /-- The value of a variable. -/
  lookup : String → Option String
  /-- The home directory of the account, used when no variable tells another. -/
  accountHome : Option String

namespace Environment

/-- Some variables, and nothing known of the account. -/
def ofList (known : List (String × String)) : Environment where
  lookup name := known.lookup name
  accountHome := none

/-- The home directory. -/
def home (env : Environment) : Option String :=
  match env.lookup "HOME" with
  | some h => if h.isEmpty then env.accountHome else some h
  | none => env.accountHome

end Environment

/-- Why a path cannot be expanded or anchored. -/
inductive PathError where
  /-- There is no path. -/
  | empty
  /-- A brace is never closed in this path. -/
  | unclosed (input : String)
  /-- A variable has no value. -/
  | unset (name : String)
  /-- The path, variables filled in, starts at the home directory of somebody else. -/
  | otherHome (input : String)
  /-- The home directory is not known. -/
  | noHome
deriving DecidableEq

/-- The wording of an error. -/
def PathError.message : PathError → String
  | .empty => "texture path must not be empty"
  | .unclosed input => "missing closing '\x7d' in '" ++ input ++ "'"
  | .unset name => s!"environment variable '{name}' is not set"
  | .otherHome input => s!"user-specific home expansion ('{input}') is not supported"
  | .noHome => "unable to determine home directory"

namespace Template

/-- Fills in the variables of a template that was read from `input`. -/
def fill (env : Environment) (input : String) : List Part → Except PathError (List Char)
  | [] => .ok []
  | .char c :: ps => (c :: ·) <$> fill env input ps
  | .reference name :: ps =>
    match env.lookup (String.ofList name) with
    | none => .error (.unset (String.ofList name))
    | some v => (v.toList ++ ·) <$> fill env input ps
  | .unclosed :: _ => .error (.unclosed input)

end Template

/-- Puts the home directory in the place of a tilde at the front. -/
def expandHome (env : Environment) (cs : List Char) : Except PathError (List Char) :=
  match cs with
  | '~' :: r =>
    if r.isEmpty ∨ r.head? = some '/' then
      match env.home with
      | some h => .ok (h.toList ++ r)
      | none => .error .noHome
    else .error (.otherHome (String.ofList cs))
  | cs => .ok cs

/-- A directory that relative paths are seen from, with what is needed to expand them. -/
structure PathResolver where
  base : String
  env : Environment

namespace PathResolver

/-- Relative paths are seen from the directory of a document. -/
def forDocument (env : Environment) (document : String) : PathResolver :=
  ⟨(Path.parent? document).getD "", env⟩

/-- Fills in variables and the home directory. -/
def expand (r : PathResolver) (input : String) : Except PathError String := do
  let filled ← Template.fill r.env input (Template.parts input.toList)
  return String.ofList (← expandHome r.env filled)

/-- The expanded path, seen from the base. -/
def anchor (r : PathResolver) (input : String) : Except PathError String := do
  if input.isEmpty then throw .empty
  return Path.join r.base (← r.expand input)

end PathResolver

end ShaderChannels
