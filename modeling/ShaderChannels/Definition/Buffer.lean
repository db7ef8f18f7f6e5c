import ShaderChannels.Definition.Setting

/-!
# Buffers and texture inputs

A shader is rendered in passes.  A buffer describes one pass: its source file, what is bound to its
channels, and whether it reads its own previous frame or the keyboard.  A texture input binds one
channel; `Texture.source` says, once and for all, what it draws from.
-/

namespace ShaderChannels

/-- A sampler slot of a pass. -/
abbrev Channel := UInt8

/-- A pass has this many slots, numbered from zero. -/
def channelLimit : Channel := 4

/-- What is bound to one channel.  The lines are those the settings were declared on. -/
structure Texture where
  channel : Channel
  /-- The file the input is declared in, where that is not the file of its buffer. -/
  file : Option String := none
  /-- The buffer whose output is read. -/
  bufferIndex : Option Nat := none
  /-- Path of a local image. -/
  localTexture : Option String := none
  /-- Address of a remote image. -/
  remoteTexture : Option String := none
  mag : Option MagSetting := none
  min : Option MinSetting := none
  wrap : Option WrapSetting := none
  type : TextureType := .plain
  magLine : Option UInt32 := none
  minLine : Option UInt32 := none
  wrapLine : Option UInt32 := none
  typeLine : Option UInt32 := none
deriving DecidableEq, Inhabited

/-- One render pass. -/
structure Buffer where
  name : String
  /-- Shader source of the pass. -/
  file : String := ""
  /-- What is bound to the channels, in order of declaration. -/
  textures : List Texture := []
  /-- Whether the pass reads its own previous frame. -/
  usesSelf : Bool := false
  /-- The channel the previous frame is bound to. -/
  selfChannel : Channel := 0
  /-- Whether the pass reads the keyboard. -/
  usesKeyboard : Bool := false
deriving DecidableEq, Inhabited

/-- What a texture input draws from. -/
inductive TextureSource where
  /-- Six local images whose paths follow a pattern, which may be missing. -/
  | cubeMap (pattern : Option String)
  /-- The output of another buffer. -/
  | buffer (index : Nat)
  /-- A local image. -/
  | localFile (path : String)
  /-- A remote image. -/
  | remoteUrl (url : String)
  /-- No source, or an image without all its settings. -/
  | incomplete
deriving DecidableEq

namespace Texture

/-- Whether both filters and the wrap mode are given. -/
def hasSettings (t : Texture) : Bool := t.mag.isSome && t.min.isSome && t.wrap.isSome

/-- What the input draws from.  The type decides first, then a buffer; images need all settings, and
a local one goes before a remote one. -/
def source (t : Texture) : TextureSource :=
  match t.type, t.bufferIndex with
  | .cubeMap, _ => .cubeMap t.localTexture
  | .plain, some i => .buffer i
  | .plain, none =>
    if t.hasSettings then
      match t.localTexture, t.remoteTexture with
      | some p, _ => .localFile p
      | none, some u => .remoteUrl u
      | none, none => .incomplete
    else .incomplete

/-- Lines of the settings that were declared: filters, wrap mode, type. -/
def settingLines (t : Texture) : List UInt32 :=
  [t.magLine, t.minLine, t.wrapLine, t.typeLine].filterMap id

/-- The file that diagnostics about an input of a buffer name. -/
def fileIn (t : Texture) (b : Buffer) : String := t.file.getD b.file

end Texture

end ShaderChannels
