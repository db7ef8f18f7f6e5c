import ShaderChannels.Binding.Host

/-!
# Cube maps

A cube map is six images whose paths follow one pattern: each face's name stands in the place of the
wildcard.  There are four conventions for the names, and the first one whose six files all exist is
taken.
-/

namespace ShaderChannels

/-- Something for each face of a cube. -/
structure Faces (α : Type) where
  east : α
  west : α
  up : α
  down : α
  north : α
  south : α
deriving DecidableEq, Inhabited

namespace Faces

variable {α β : Type}

/-- The faces in order. -/
def toList (f : Faces α) : List α := [f.east, f.west, f.up, f.down, f.north, f.south]

/-- Changes what belongs to each face. -/
def map (g : α → β) (f : Faces α) : Faces β :=
  ⟨g f.east, g f.west, g f.up, g f.down, g f.north, g f.south⟩

@[simp] theorem toList_map (g : α → β) (f : Faces α) : (f.map g).toList = f.toList.map g := rfl

end Faces

namespace CubeMap

/-- Names of the faces, in the order in which conventions are tried. -/
def conventions : List (Faces String) :=
  [⟨"e", "w", "u", "d", "n", "s"⟩,
    ⟨"east", "west", "up", "down", "north", "south"⟩,
    ⟨"px", "nx", "py", "ny", "pz", "nz"⟩,
    ⟨"posx", "negx", "posy", "negy", "posz", "negz"⟩]

/-- Number of wildcards in a pattern. -/
def wildcards : List Char → Nat
  | '{' :: '}' :: r => wildcards r + 1
  | _ :: r => wildcards r
  | [] => 0

/-- A pattern with exactly one wildcard. -/
def hasSingleWildcard (pattern : String) : Bool := wildcards pattern.toList == 1

/-- Puts a name in the place of the first wildcard. -/
def fillChars (name : List Char) : List Char → List Char
  | '{' :: '}' :: r => name ++ r
  | c :: r => c :: fillChars name r
  | [] => []

/-- The path of the face with this name. -/
def fill (pattern name : String) : String :=
  String.ofList (fillChars name.toList pattern.toList)

/-- The faces a pattern may stand for, one set for each convention. -/
def candidates (pattern : String) : List (Faces String) :=
  conventions.map (Faces.map (fill pattern))

/-- The faces of the first convention whose files all exist. -/
def discover (host : Host) (pattern : String) : Option (Faces String) :=
  (candidates pattern).find? (·.toList.all host.fileExists)

end CubeMap

end ShaderChannels
