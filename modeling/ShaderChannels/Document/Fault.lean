import ShaderChannels.Text.Escaped
import ShaderChannels.Toml.Value

/-!
# Faults of shape

A TOML text may be well formed and still not describe a shader.  A fault says what was found where
something else was wanted.
-/

namespace ShaderChannels

/-- What a document wants in a place. -/
inductive Wanted where
  | string
  | boolean
  | sequence
  | path
  /-- A number of eight bits. -/
  | byte
  /-- A number of 32 bits. -/
  | line
  /-- A place in a list. -/
  | index
  | buffer
  | texture
deriving DecidableEq

/-- A name for what is wanted. -/
def Wanted.name : Wanted → String
  | .string => "a string"
  | .boolean => "a boolean"
  | .sequence => "a sequence"
  | .path => "path string"
  | .byte => "u8"
  | .line => "u32"
  | .index => "usize"
  | .buffer => "struct BufferDefinition"
  | .texture => "struct TextureDefinition"

/-- Why a value is not what a document wants. -/
inductive Fault where
  /-- A field that has no default is absent. -/
  | missing (field : String)
  /-- A value of another kind. -/
  | wrongKind (found : Toml.Value) (wanted : Wanted)
  /-- A number that is too small or too large. -/
  | outOfRange (n : Int) (wanted : Wanted)
  /-- An empty array where fields were wanted in order. -/
  | noFields (fields : Nat) (wanted : Wanted)
  /-- A word that is no texture type. -/
  | unknownType (word : String)
  /-- A setting that is neither a word nor a table. -/
  | settingKind
  /-- A setting written as a table without a key. -/
  | settingEmpty
  /-- A setting written as a table with several keys. -/
  | settingCrowded
  /-- A setting written as a table whose key holds something. -/
  | settingFilled
  /-- A setting written as a table whose key holds no table. -/
  | settingNoTable (found : Toml.Value)

namespace Fault

/-- How a value is told in a message. -/
def found : Toml.Value → String
  | .string s => "string " ++ Escaped.quote s
  | .integer n => s!"integer `{n}`"
  | .float x => s!"floating point `{x.display}`"
  | .boolean b => s!"boolean `{b}`"
  | .array _ => "sequence"
  | .table _ | .datetime => "map"

/-- The wording of a fault. -/
def message : Fault → String
  | .missing field => s!"missing field `{field}`"
  | .wrongKind v w => s!"invalid type: {found v}, expected {w.name}"
  | .outOfRange n w => s!"invalid value: integer `{n}`, expected {w.name}"
  | .noFields n w => s!"invalid length 0, expected {w.name} with {n} elements"
  | .unknownType word => s!"unknown variant `{word}`, expected `Plain` or `CubeMap`"
  | .settingKind => "wanted string or table"
  | .settingEmpty => "wanted exactly 1 element, found 0 elements"
  | .settingCrowded => "wanted exactly 1 element, more than 1 element"
  | .settingFilled => "expected empty table"
  | .settingNoTable v => s!"expected table, found {v.kind}"

end Fault

end ShaderChannels
