import ShaderChannels.Binding.Resolve
import ShaderChannels.Json.Text
import ShaderChannels.Source.Directive

/-!
# JSON forms

How tokens, directives, operations and reports are written in JSON.
-/

namespace ShaderChannels

/-- A span by its ends. -/
def Span.toJson (s : Span) : Json := .object [("begin", .nat s.start), ("end", .nat s.stop)]

/-- The name of a class of tokens in JSON. -/
def TokenKind.jsonName : TokenKind → String
  | .punctuation => "punctuation"
  | .operator => "operator"
  | .string => "string"
  | .integer => "integer"
  | .float => "float"
  | .identifier => "identifier"
  | .preprocessorKeyword => "preprocessor_keyword"
  | .keyword => "keyword"
  | .type => "type"
  | .unknown => "unknown"

/-- What a token carries. -/
def TokenValue.toJson : TokenValue → Json
  | .text s => .string s
  | .number x => .number x

/-- A token and where it stands. -/
def Token.toJson (t : Token) (line : Nat) (span : Span) : Json :=
  .object [("line", .nat line), ("range", span.toJson), ("kind", .string t.kind.jsonName),
    ("value", t.value.toJson)]

/-- A directive. -/
def Directive.toJson (d : Directive) : Json :=
  .object [("keyword", .string d.keyword), ("line", .nat d.line), ("range", d.span.toJson),
    ("argument", .ofOption .string d.argument)]

/-- A sampler. -/
def Sampler.toJson (s : Sampler) : Json :=
  .object [("mag", .string s.mag.name), ("min", .string s.min.name), ("wrap", .string s.wrap.name)]

/-- A location, under the word for its kind. -/
def Location.toJson : Location → Json
  | .path p => .object [("path", .string p)]
  | .resource r => .object [("resource", .string r)]

/-- The keyboard texture. -/
def Keyboard.toJson (k : Keyboard) : Json :=
  .object [("label", .string k.label), ("width", .nat k.width.toNat),
    ("height", .nat k.height.toNat)]

/-- An operation, which starts with its name. -/
def Op.toJson : Op → Json
  | .cubeMap c faces sampler =>
    .object [("op", .string "cube_map"), ("channel", .nat c.toNat),
      ("faces", .array (faces.toList.map Location.toJson)), ("sampler", sampler.toJson)]
  | .buffer c source =>
    .object [("op", .string "buffer_ref"), ("channel", .nat c.toNat), ("source", .nat source)]
  | .file c location sampler =>
    .object [("op", .string "file"), ("channel", .nat c.toNat), ("location", location.toJson),
      ("sampler", sampler.toJson)]
  | .remote c url sampler =>
    .object [("op", .string "remote"), ("channel", .nat c.toNat), ("url", .string url),
      ("sampler", sampler.toJson)]
  | .selfFeedback c => .object [("op", .string "self_feedback"), ("channel", .nat c.toNat)]
  | .keyboard k => .object [("op", .string "keyboard"), ("texture", k.toJson)]

/-- A message about a line. -/
def Diagnostic.toJson (d : Diagnostic) : Json :=
  .object [("line", .nat d.line.toNat), ("message", .string d.message)]

/-- Messages about a file. -/
def Batch.toJson (b : Batch) : Json :=
  .object [("filename", .string b.file),
    ("diagnostics", .array (b.diagnostics.map Diagnostic.toJson))]

/-- A report. -/
def Report.toJson (r : Report) : Json :=
  .object [("severity", .string r.severity.name), ("batch", r.batch.toJson)]

/-- The operations of a buffer. -/
def ResolvedBuffer.toJson (b : ResolvedBuffer) : Json :=
  .object [("index", .nat b.index), ("ops", .array (b.ops.map Op.toJson))]

/-- A resolution without its checks. -/
def Resolution.toJson (r : Resolution) : Json :=
  .object [("buffers", .array (r.buffers.map ResolvedBuffer.toJson)),
    ("diagnostics", .array (r.reports.map Report.toJson))]

end ShaderChannels
