/-!
# Texture settings

The words a texture input is set up with.  A word outside the vocabulary of a filter or wrap setting
is kept as `unrecognized`: it counts as given, and the sampler treats it like the default.  Only the
texture type admits no other word.
-/

namespace ShaderChannels

/-- How a texture is magnified. -/
inductive MagSetting where
  | nearest
  | linear
  | unrecognized
deriving DecidableEq, Inhabited

/-- How a texture is minified. -/
inductive MinSetting where
  | nearest
  | nearestMipMapNearest
  | nearestMipMapLinear
  | linear
  | linearMipMapNearest
  | linearMipMapLinear
  | unrecognized
deriving DecidableEq, Inhabited

/-- What lies outside a texture. -/
inductive WrapSetting where
  | clamp
  | repeated
  | mirror
  | unrecognized
deriving DecidableEq, Inhabited

/-- What a texture consists of. -/
inductive TextureType where
  /-- One image. -/
  | plain
  /-- Six images, one for each face of a cube. -/
  | cubeMap
deriving DecidableEq, Inhabited

namespace MagSetting

/-- The setting a word stands for. -/
def ofWord : String → MagSetting
  | "Nearest" => .nearest
  | "Linear" => .linear
  | _ => .unrecognized

/-- The word of a setting. -/
def word : MagSetting → String
  | .nearest => "Nearest"
  | .linear => "Linear"
  | .unrecognized => "Unrecognized"

@[simp] theorem ofWord_word (s : MagSetting) : ofWord s.word = s := by cases s <;> rfl

end MagSetting

namespace MinSetting

/-- The setting a word stands for. -/
def ofWord : String → MinSetting
  | "Nearest" => .nearest
  | "NearestMipMapNearest" => .nearestMipMapNearest
  | "NearestMipMapLinear" => .nearestMipMapLinear
  | "Linear" => .linear
  | "LinearMipMapNearest" => .linearMipMapNearest
  | "LinearMipMapLinear" => .linearMipMapLinear
  | _ => .unrecognized

/-- The word of a setting. -/
def word : MinSetting → String
  | .nearest => "Nearest"
  | .nearestMipMapNearest => "NearestMipMapNearest"
  | .nearestMipMapLinear => "NearestMipMapLinear"
  | .linear => "Linear"
  | .linearMipMapNearest => "LinearMipMapNearest"
  | .linearMipMapLinear => "LinearMipMapLinear"
  | .unrecognized => "Unrecognized"

@[simp] theorem ofWord_word (s : MinSetting) : ofWord s.word = s := by cases s <;> rfl

end MinSetting

namespace WrapSetting

/-- The setting a word stands for. -/
def ofWord : String → WrapSetting
  | "Clamp" => .clamp
  | "Repeat" => .repeated
  | "Mirror" => .mirror
  | _ => .unrecognized

/-- The word of a setting. -/
def word : WrapSetting → String
  | .clamp => "Clamp"
  | .repeated => "Repeat"
  | .mirror => "Mirror"
  | .unrecognized => "Unrecognized"

@[simp] theorem ofWord_word (s : WrapSetting) : ofWord s.word = s := by cases s <;> rfl

end WrapSetting

namespace TextureType

/-- The type a word stands for, if it is one. -/
def ofWord? : String → Option TextureType
  | "Plain" => some .plain
  | "CubeMap" => some .cubeMap
  | _ => none

/-- The word of a type. -/
def word : TextureType → String
  | .plain => "Plain"
  | .cubeMap => "CubeMap"

@[simp] theorem ofWord?_word (t : TextureType) : ofWord? t.word = some t := by cases t <;> rfl

end TextureType

end ShaderChannels
