/-!
# Path templates

A path may refer to environment variables, as `$NAME` or between braces.  `parts` reads a template
from left to right; a dollar sign that introduces no name stands for itself.  A brace that is
never closed ends the reading: what comes after it has no meaning.
-/

namespace ShaderChannels

/-- A part of a path template. -/
inductive Template.Part where
  /-- A character that stands for itself. -/
  | char (c : Char)
  /-- The value of a variable. -/
  | reference (name : List Char)
  /-- A brace that is never closed. -/
  | unclosed
deriving DecidableEq

namespace Template

/-- Characters of a name without braces. -/
def isName (c : Char) : Bool := c == '_' || c.isAlphanum

/-- The text up to the first closing brace, and what follows the brace. -/
def splitBrace? : List Char → Option (List Char × List Char)
  | [] => none
  | c :: r =>
    if c = '}' then some ([], r) else (splitBrace? r).map fun p ↦ (c :: p.1, p.2)

theorem length_splitBrace? {cs name r : List Char} (h : splitBrace? cs = some (name, r)) :
    r.length < cs.length := by
  induction cs generalizing name r with
  | nil => simp [splitBrace?] at h
  | cons c cs ih =>
    rw [splitBrace?] at h
    split at h
    · simp_all
    · obtain ⟨p, hp, e⟩ := Option.map_eq_some_iff.mp h
      have := @ih p.1 p.2 hp
      simp_all
      omega

/-- The parts of a template. -/
def parts (cs : List Char) : List Part :=
  match cs with
  | [] => []
  | '$' :: '{' :: r =>
    match _read : splitBrace? r with
    | none => [.unclosed]
    | some ([], _) => .char '$' :: parts ('{' :: r)
    | some (name, r') => .reference name :: parts r'
  | '$' :: r =>
    match r.takeWhile isName with
    | [] => .char '$' :: parts r
    | name => .reference name :: parts (r.dropWhile isName)
  | c :: r => .char c :: parts r
termination_by cs.length
decreasing_by
  · simp
  · have := length_splitBrace? _read
    simp only [List.length_cons]
    omega
  · simp
  · have := (r.dropWhile_sublist isName).length_le
    simp only [List.length_cons]
    omega
  · simp

/-- The variables a template refers to. -/
def references (ps : List Part) : List String :=
  ps.filterMap fun
    | .reference name => some (String.ofList name)
    | _ => none

end Template

end ShaderChannels
