import ShaderChannels.Definition.Buffer
import ShaderChannels.Document.Fault

/-!
# Reading a document from a table

The entries of a table are taken in the order in which they stand; the first one that does not fit
is the fault.  Keys that mean nothing are passed over.  Whether a field without a default is there
at all is looked at last.  Buffers and textures may also be written as arrays that hold their
fields in order.
-/

namespace ShaderChannels

/-- A shader document: the buffers of a shader. -/
structure Document where
  name : Option String := none
  buffers : List Buffer := []
deriving DecidableEq, Inhabited

namespace Decode

open Toml (Value Table)

/-- A string. -/
def string : Value → Except Fault String
  | .string s => .ok s
  | v => .error (.wrongKind v .string)

/-- A path. -/
def path : Value → Except Fault String
  | .string s => .ok s
  | v => .error (.wrongKind v .path)

/-- A truth value. -/
def boolean : Value → Except Fault Bool
  | .boolean b => .ok b
  | v => .error (.wrongKind v .boolean)

/-- A natural number below a bound, if there is one. -/
def natural (wanted : Wanted) (bound : Option Nat) : Value → Except Fault Nat
  | .integer n =>
    if 0 ≤ n ∧ bound.all (n.toNat < ·) then .ok n.toNat else .error (.outOfRange n wanted)
  | v => .error (.wrongKind v wanted)

/-- A channel. -/
def channel (v : Value) : Except Fault Channel := UInt8.ofNat <$> natural .byte (some UInt8.size) v

/-- A line. -/
def line (v : Value) : Except Fault UInt32 := UInt32.ofNat <$> natural .line (some UInt32.size) v

/-- A place in a list. -/
def index (v : Value) : Except Fault Nat := natural .index none v

/-- Nothing, as the body of a setting that is written as a table. -/
def nothing : Value → Except Fault Unit
  | .table [] | .array [] => .ok ()
  | .table _ | .array _ => .error .settingFilled
  | v => .error (.settingNoTable v)

/-- A setting: a word, or a table whose only key is the word and holds nothing. -/
def setting {α : Type} (ofWord : String → Except Fault α) : Value → Except Fault α
  | .string w => ofWord w
  | .table [] => .error .settingEmpty
  | .table [(w, body)] => do
    let a ← ofWord w
    nothing body
    return a
  | .table _ => .error .settingCrowded
  | _ => .error .settingKind

/-- The texture type a word stands for. -/
def typeOfWord (w : String) : Except Fault TextureType :=
  match TextureType.ofWord? w with
  | some t => .ok t
  | none => .error (.unknownType w)

/-- Takes one entry of a texture table. -/
def putTexture (t : Texture) (key : String) (v : Value) : Except Fault Texture :=
  match key with
  | "channel" => return { t with channel := ← channel v }
  | "file" => return { t with file := some (← path v) }
  | "buffer_index" => return { t with bufferIndex := some (← index v) }
  | "local_texture" => return { t with localTexture := some (← path v) }
  | "remote_texture" => return { t with remoteTexture := some (← string v) }
  | "mag" => return { t with mag := some (← setting (.ok ∘ MagSetting.ofWord) v) }
  | "min" => return { t with min := some (← setting (.ok ∘ MinSetting.ofWord) v) }
  | "wrap" => return { t with wrap := some (← setting (.ok ∘ WrapSetting.ofWord) v) }
  | "type" => return { t with type := ← setting typeOfWord v }
  | "mag_line" => return { t with magLine := some (← line v) }
  | "min_line" => return { t with minLine := some (← line v) }
  | "wrap_line" => return { t with wrapLine := some (← line v) }
  | "type_line" => return { t with typeLine := some (← line v) }
  | _ => return t

/-- The keys of a texture, in the order of its fields. -/
def textureKeys : List String :=
  ["channel", "file", "buffer_index", "local_texture", "remote_texture", "mag", "min", "wrap",
    "type", "mag_line", "min_line", "wrap_line", "type_line"]

/-- Whether a table has a key. -/
def hasKey (key : String) (es : Table) : Bool := es.any (·.1 == key)

/-- A texture from the entries of its table. -/
def textureOfTable (es : Table) : Except Fault Texture := do
  let t ← es.foldlM (fun t e ↦ putTexture t e.1 e.2) ({ channel := 0 } : Texture)
  if hasKey "channel" es then return t else throw (.missing "channel")

/-- A texture. -/
def texture : Value → Except Fault Texture
  | .table es => textureOfTable es
  | .array [] => .error (.noFields textureKeys.length .texture)
  | .array vs => textureOfTable (textureKeys.zip vs)
  | .datetime => textureOfTable []
  | v => .error (.wrongKind v .texture)

/-- A list. -/
def list {α : Type} (item : Value → Except Fault α) : Value → Except Fault (List α)
  | .array vs => vs.mapM item
  | v => .error (.wrongKind v .sequence)

/-- Takes one entry of a buffer table. -/
def putBuffer (b : Buffer) (key : String) (v : Value) : Except Fault Buffer :=
  match key with
  | "name" => return { b with name := ← string v }
  | "file" => return { b with file := ← path v }
  | "texture" => return { b with textures := ← list texture v }
  | "uses_self" => return { b with usesSelf := ← boolean v }
  | "self_channel" => return { b with selfChannel := ← channel v }
  | "uses_keyboard" => return { b with usesKeyboard := ← boolean v }
  | _ => return b

/-- The keys of a buffer, in the order of its fields. -/
def bufferKeys : List String :=
  ["name", "file", "texture", "uses_self", "self_channel", "uses_keyboard"]

/-- A buffer from the entries of its table. -/
def bufferOfTable (es : Table) : Except Fault Buffer := do
  let b ← es.foldlM (fun b e ↦ putBuffer b e.1 e.2) ({ name := "" } : Buffer)
  if hasKey "name" es then return b else throw (.missing "name")

/-- A buffer. -/
def buffer : Value → Except Fault Buffer
  | .table es => bufferOfTable es
  | .array [] => .error (.noFields bufferKeys.length .buffer)
  | .array vs => bufferOfTable (bufferKeys.zip vs)
  | .datetime => bufferOfTable []
  | v => .error (.wrongKind v .buffer)

/-- Takes one entry of the document's table. -/
def putDocument (d : Document) (key : String) (v : Value) : Except Fault Document :=
  match key with
  | "name" => return { d with name := some (← string v) }
  | "buffer" => return { d with buffers := ← list buffer v }
  | _ => return d

/-- A document from its table. -/
def document (es : Table) : Except Fault Document :=
  es.foldlM (fun d e ↦ putDocument d e.1 e.2) {}

end Decode

end ShaderChannels
