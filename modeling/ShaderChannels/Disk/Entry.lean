/-!
# What is on disk

A disk is told by what each path leads to.  Of a file only two things matter, the text and the
picture it holds.
-/

namespace ShaderChannels

/-- Picture formats that can be measured. -/
inductive PictureFormat where
  | png
  | jpeg
  | bmp
  | gif
deriving DecidableEq, Inhabited

/-- What can be told of a picture without decoding it. -/
structure Picture where
  format : PictureFormat
  width : UInt32
  height : UInt32
deriving DecidableEq, Inhabited

/-- What matters of a file. -/
structure Content where
  /-- The text it holds, unless it is not in UTF-8. -/
  text : Option String
  /-- The picture it holds, if it holds one. -/
  picture : Option Picture
deriving DecidableEq, Inhabited

/-- What a path leads to. -/
inductive Entry where
  /-- Nothing. -/
  | missing
  /-- Nothing, since the way leads through a file. -/
  | blocked
  | directory
  | file (content : Content)
deriving DecidableEq, Inhabited

/-- What each path leads to. -/
abbrev Disk := String → Entry

/-- A disk with some entries and nothing else. -/
def Disk.ofList (entries : List (String × Entry)) : Disk :=
  fun path ↦ (entries.lookup path).getD .missing

/-- Why a text cannot be read. -/
inductive ReadError where
  | notFound
  | notDirectory
  | isDirectory
  | notText
deriving DecidableEq

/-- The wording of an error. -/
def ReadError.message : ReadError → String
  | .notFound => "No such file or directory (os error 2)"
  | .notDirectory => "Not a directory (os error 20)"
  | .isDirectory => "Is a directory (os error 21)"
  | .notText => "stream did not contain valid UTF-8"

namespace Entry

/-- Whether there is anything. -/
def isThere : Entry → Bool
  | .missing | .blocked => false
  | .directory | .file _ => true

/-- Whether there is a file. -/
def isFile : Entry → Bool
  | .file _ => true
  | .missing | .blocked | .directory => false

/-- The text there. -/
def read : Entry → Except ReadError String
  | .missing => .error .notFound
  | .blocked => .error .notDirectory
  | .directory => .error .isDirectory
  | .file content =>
    match content.text with
    | none => .error .notText
    | some s => .ok s

end Entry

/-- The format the ending of a path promises, whatever its case. -/
def PictureFormat.ofPath? (path : String) : Option PictureFormat :=
  let name := path.toList.reverse.takeWhile (· != '/')
  let ending := (name.takeWhile (· != '.')).reverse.map Char.toLower
  let stem := (name.dropWhile (· != '.')).drop 1
  if stem.isEmpty then none
  else match String.ofList ending with
    | "png" => some .png
    | "jpg" | "jpeg" => some .jpeg
    | "bmp" => some .bmp
    | "gif" => some .gif
    | _ => none

/-- The size of the picture a path leads to.  It can be told only if the picture is in the format
the path promises. -/
def Disk.pictureSize? (disk : Disk) (path : String) : Option (UInt32 × UInt32) :=
  match disk path with
  | .missing | .blocked | .directory => none
  | .file content => do
    let picture ← content.picture
    guard (PictureFormat.ofPath? path = some picture.format)
    return (picture.width, picture.height)

end ShaderChannels
