/-!
# Paths

A path is text in which slashes part names.  It is kept as it was built; only taking its parent
passes over repeated slashes, a slash at the end and names that are a single dot.
-/

namespace ShaderChannels.Path

/-- A path that starts at the root. -/
def isAbsolute (p : String) : Bool := p.toList.head? == some '/'

/-- The path `p` as seen from the directory `base`. -/
def join (base p : String) : String :=
  if isAbsolute p then p
  else if base.toList.isEmpty || base.toList.getLast? == some '/' then base ++ p
  else base ++ "/" ++ p

/-- The part a path starts with that is no name: the root, or a leading dot. -/
def anchorLength (cs : List Char) : Nat :=
  match cs with
  | '/' :: _ => 1
  | ['.'] => 1
  | '.' :: '/' :: _ => 1
  | _ => 0

/-- Drops what names nothing from the end of a path that is read backwards: slashes, and names that
are a single dot. -/
def trim (rev : List Char) : List Char :=
  if rev.isEmpty then []
  else
    let last := rev.takeWhile (· != '/')
    if last = [] ∨ last = ['.'] then trim ((rev.dropWhile (· != '/')).drop 1) else rev
termination_by rev.length
decreasing_by
  have := congrArg List.length (rev.takeWhile_append_dropWhile (p := (· != '/')))
  cases rev with
  | nil => simp_all
  | cons c r =>
    rename_i h
    rcases h with h | h
    · simp only [last] at h
      have hc : (c != '/') = false := by
        by_cases e : (c != '/') = true
        · simp [e] at h
        · simpa using e
      simp [hc]
    · simp_all only [last, List.length_append, List.length_cons, List.length_drop]
      simp at this ⊢
      omega

/-- The directory that holds what a path names.  The root has none. -/
def parent? (p : String) : Option String :=
  let cs := p.toList
  let anchor := cs.take (anchorLength cs)
  match trim (cs.drop (anchorLength cs)).reverse with
  | [] => if anchor = ['.'] then some "" else none
  | rev => some (String.ofList (anchor ++ (trim ((rev.dropWhile (· != '/')).drop 1)).reverse))

end ShaderChannels.Path
