import ShaderChannels.Document.Decode

/-!
# Issues of a document

A document of the right shape may still ask for what cannot be: no buffers, channels that do not
exist, channels bound twice, buffers that do not exist or name themselves.  `Document.issues` lists
all of this in the order of the document.
-/

namespace ShaderChannels

/-- Something a document asks for that cannot be.  Most are told by the name of a buffer. -/
inductive Issue where
  /-- There are no buffers. -/
  | noBuffers
  /-- An input is bound to a channel that does not exist. -/
  | channelLimit (buffer : String) (channel : Channel)
  /-- An input is bound to a channel that is taken. -/
  | channelTaken (buffer : String) (channel : Channel)
  /-- An input reads a buffer that does not exist. -/
  | undefinedBuffer (buffer : String) (index : Nat)
  /-- An input reads its own buffer. -/
  | readsItself (buffer : String) (channel : Channel)
  /-- The previous frame is bound to a channel that does not exist. -/
  | feedbackLimit (buffer : String) (channel : Channel)
deriving DecidableEq

/-- The wording of an issue. -/
def Issue.message : Issue → String
  | .noBuffers => "document must declare at least one buffer"
  | .channelLimit b c => s!"buffer '{b}' uses channel {c} which exceeds the channel limit"
  | .channelTaken b c => s!"buffer '{b}' binds channel {c} more than once"
  | .undefinedBuffer b i => s!"buffer '{b}' references buffer {i} which is undefined"
  | .readsItself b c => s!"buffer '{b}' references itself on channel {c}; use uses_self"
  | .feedbackLimit b c =>
    s!"buffer '{b}' feeds back into channel {c} which exceeds the channel limit"

namespace Texture

/-- The issues of an input of buffer number `index` among `count`, called `name`, when the channels
in `taken` are bound by earlier inputs. -/
def issues (t : Texture) (count index : Nat) (name : String) (taken : List Channel) : List Issue :=
  (if channelLimit ≤ t.channel then [.channelLimit name t.channel] else []) ++
  (if t.channel ∈ taken then [.channelTaken name t.channel] else []) ++
  match t.bufferIndex with
  | none => []
  | some i =>
    if count ≤ i then [.undefinedBuffer name i]
    else if i = index then [.readsItself name t.channel]
    else []

end Texture

namespace Buffer

/-- The issues of inputs that follow others which bind the channels in `taken`. -/
def inputIssues (count index : Nat) (name : String) : List Channel → List Texture → List Issue
  | _, [] => []
  | taken, t :: ts =>
    t.issues count index name taken ++ inputIssues count index name (t.channel :: taken) ts

/-- The issues of buffer number `index` among `count`. -/
def issues (b : Buffer) (count index : Nat) : List Issue :=
  inputIssues count index b.name [] b.textures ++
  if b.usesSelf ∧ channelLimit ≤ b.selfChannel then [.feedbackLimit b.name b.selfChannel] else []

end Buffer

/-- The issues of a document. -/
def Document.issues (d : Document) : List Issue :=
  (if d.buffers.isEmpty then [.noBuffers] else []) ++
  d.buffers.zipIdx.flatMap fun (b, i) ↦ b.issues d.buffers.length i

end ShaderChannels
