import ShaderChannels.Binding.CubeMap
import ShaderChannels.Command.Arguments
import ShaderChannels.Document.Load

/-!
# Surveys

Running a command is a function of the environment and the disk as a whole, but it looks at little
of them.  A survey lists what that is, in two rounds: first the file a command starts from, then,
when that is a document, the local images its inputs may lead to and the variables in their paths.
-/

namespace ShaderChannels

namespace Command

/-- The variables that are looked at whatever the arguments are. -/
def ownVariables : List String := ["HOME", "TOYBIND_STANDALONE", "TOYBIND_SCHEME"]

/-- The file a command starts from. -/
def file : Command → String
  | .tokens file .. | .directives file _ | .resolve file .. => file

/-- The document a command starts from, with its path. -/
def document? (disk : Disk) : Command → Option (String × Document)
  | .tokens .. | .directives .. => none
  | .resolve file .. =>
    match Document.load disk file with
    | .ok d => some (file, d)
    | .error _ => none

end Command

/-- The paths, as written, that an input may lead to. -/
def Texture.localPaths (t : Texture) : List String :=
  match t.source with
  | .localFile p => [p]
  | .cubeMap (some pattern) => (CubeMap.candidates pattern).flatMap Faces.toList
  | .cubeMap none | .buffer _ | .remoteUrl _ | .incomplete => []

namespace Document

/-- The paths, as written, that the inputs of a document may lead to. -/
def localPaths (d : Document) : List String :=
  d.buffers.flatMap fun b ↦ b.textures.flatMap Texture.localPaths

/-- The variables in those paths. -/
def pathVariables (d : Document) : List String :=
  d.localPaths.flatMap fun p ↦ Template.references (Template.parts p.toList)

/-- Those of the paths that can be anchored. -/
def anchoredPaths (d : Document) (r : PathResolver) : List String :=
  d.localPaths.filterMap fun p ↦ (r.anchor p).toOption

end Document

end ShaderChannels
