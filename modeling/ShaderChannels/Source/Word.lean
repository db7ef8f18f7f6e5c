/-!
# Words

A word is a run of ASCII letters, digits and underscores.  A few words have a meaning of their own:
those that set texture options, the names of scalar and vector types, and those that name a preview
directive when a `#` stands before them.
-/

namespace ShaderChannels.Word

/-- Characters a word can start with. -/
def isStart (c : Char) : Bool := c.isAlpha || c == '_'

/-- Characters a word is made of. -/
def isPart (c : Char) : Bool := c.isAlphanum || c == '_'

/-- Words that set texture options. -/
def settings : List String := ["MinFilter", "MagFilter", "WrapMode", "Type", "in"]

/-- Names of scalar and vector types. -/
def types : List String := ["float", "vec2", "vec3", "vec4", "int", "ivec2", "ivec3", "ivec4"]

/-- Directives that are a single fixed word. -/
def directives : List String := ["include", "iKeyboard", "iUniform"]

/-- What the word of a channel directive starts with. -/
def channelStem : String := "iChannel"

/-- Whether a word after a `#` names a preview directive. -/
def isDirective (w : List Char) : Bool :=
  directives.contains (String.ofList w) || channelStem.toList.isPrefixOf w

/-- The longest run of word characters at the front, and what follows it. -/
def split (cs : List Char) : List Char × List Char :=
  (cs.takeWhile isPart, cs.dropWhile isPart)

theorem split_append (cs : List Char) : (split cs).1 ++ (split cs).2 = cs :=
  List.takeWhile_append_dropWhile

end ShaderChannels.Word
