import ShaderChannels.Binding.Probe
import ShaderChannels.Source.Directive

/-!
# What is printed

The lines that show tokens, directives and operations to a reader.  Lines of a source are counted
from one.
-/

namespace ShaderChannels

/-- Blanks before a text, up to a width. -/
def padLeft (width : Nat) (s : String) : String :=
  String.ofList (List.replicate (width - s.length) ' ') ++ s

/-- Blanks after a text, up to a width. -/
def padRight (width : Nat) (s : String) : String :=
  s ++ String.ofList (List.replicate (width - s.length) ' ')

/-- The name of a class of tokens. -/
def TokenKind.display : TokenKind → String
  | .punctuation => "Punctuation"
  | .operator => "Operator"
  | .string => "String"
  | .integer => "Integer"
  | .float => "Float"
  | .identifier => "Identifier"
  | .preprocessorKeyword => "PreprocessorKeyword"
  | .keyword => "Keyword"
  | .type => "Type"
  | .unknown => "Unknown"

/-- A token and where it stands, in columns. -/
def Token.display (t : Token) (line : Nat) (span : Span) : String :=
  padLeft 5 (toString (line + 1)) ++ " " ++ padLeft 6 (toString span.start) ++ ".." ++
    padRight 6 (toString span.stop) ++ " " ++ padRight 20 t.kind.display ++ " " ++ t.value.display

/-- A directive with its argument. -/
def Directive.display (d : Directive) : String :=
  padLeft 5 (toString (d.line + 1)) ++ " #" ++ d.keyword ++
    match d.argument with
    | some a => " \"" ++ a ++ "\""
    | none => ""

/-- A sampler. -/
def Sampler.display (s : Sampler) : String :=
  "SamplerSettings \x7b mag: " ++ s.mag.name ++ ", min: " ++ s.min.name ++
    ", wrap: " ++ s.wrap.name ++ " \x7d"

/-- A location. -/
def Location.display : Location → String
  | .path p => p
  | .resource r => r

/-- An operation. -/
def Op.display : Op → String
  | .cubeMap c faces sampler =>
    s!"iChannel{c} <- cube map [" ++ ", ".intercalate (faces.toList.map Location.display) ++ "] " ++
      sampler.display
  | .buffer c source => s!"iChannel{c} <- buffer {source}"
  | .file c location sampler => s!"iChannel{c} <- file {location.display} {sampler.display}"
  | .remote c url sampler => s!"iChannel{c} <- remote {url} {sampler.display}"
  | .selfFeedback c => s!"iChannel{c} <- previous frame"
  | .keyboard k => s!"iKeyboard <- {k.label} ({k.width}x{k.height})"

/-- The operations of a buffer called `name`. -/
def ResolvedBuffer.display (b : ResolvedBuffer) (name : String) : List String :=
  s!"buffer {b.index} ({name}):" :: b.ops.map ("  " ++ ·.display)

/-- The size of a channel. -/
def ChannelSize.display (s : ChannelSize) (id : BindingId) : String :=
  s!"loaded buffer {id.buffer} channel {id.channel}: {s.width}x{s.height}"

/-- The operations of all buffers of a document. -/
def Resolution.display (r : Resolution) (d : Document) : List String :=
  r.buffers.flatMap fun b ↦ b.display ((d.buffers[b.index]?.map Buffer.name).getD "?")

end ShaderChannels
