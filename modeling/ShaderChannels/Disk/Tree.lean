import ShaderChannels.Disk.Entry

/-!
# Directory trees

A tree lists files and directories by the names on the way from the root.  `Tree.disk` follows
paths through it, one name after the other, as seen from a working directory: a dot stays, two
dots go up, and there is no way through a file, not even for a slash at the end.
-/

namespace ShaderChannels

/-- The names on the way from the root. -/
abbrev Way := List String

/-- A directory tree as seen from one of its directories. -/
structure Tree where
  /-- The working directory. -/
  here : Way
  /-- Directories; those on the way to others need not be listed. -/
  directories : List Way
  files : List (Way × Content)

namespace Tree

/-- The pieces of a path between slashes. -/
def pieces (path : String) : List String :=
  (path.toList.splitOn '/').map String.ofList

/-- What stands at the end of a way. -/
def entryAt (t : Tree) (way : Way) : Entry :=
  match t.files.lookup way with
  | some content => .file content
  | none =>
    if way.isEmpty || way.isPrefixOf t.here || t.directories.any (way.isPrefixOf ·)
        || t.files.any (way.isPrefixOf ·.1) then .directory
    else .missing

/-- Follows the pieces of a path from a place. -/
def follow (t : Tree) (way : Way) : List String → Entry
  | [] => t.entryAt way
  | piece :: rest =>
    match t.entryAt way with
    | .directory =>
      if piece = "" ∨ piece = "." then t.follow way rest
      else if piece = ".." then t.follow way.dropLast rest
      else t.follow (way ++ [piece]) rest
    | .file .. => .blocked
    | e => e

/-- What each path leads to.  The empty path leads nowhere. -/
def disk (t : Tree) : Disk := fun path ↦
  if path.isEmpty then .missing
  else match path.toList with
    | '/' :: _ => t.follow [] (pieces path)
    | _ => t.follow t.here (pieces path)

/-- The way a path of the tree's own listing stands for. -/
def wayOf (t : Tree) (path : String) : Way :=
  let names := (pieces path).filter fun p ↦ p ≠ "" ∧ p ≠ "."
  if path.toList.head? = some '/' then names else t.here ++ names

end Tree

end ShaderChannels
