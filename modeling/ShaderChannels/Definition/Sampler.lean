import ShaderChannels.Definition.Buffer

/-!
# Samplers

What the settings of a texture input come down to when it is bound.  A setting that is absent or not
recognized takes its default: linear filters and repetition.
-/

namespace ShaderChannels

/-- Magnification of a bound texture. -/
inductive MagFilter where
  | nearest
  | linear
deriving DecidableEq, Inhabited

/-- Minification of a bound texture. -/
inductive MinFilter where
  | nearest
  | nearestMipNearest
  | nearestMipLinear
  | linear
  | linearMipNearest
  | linearMipLinear
deriving DecidableEq, Inhabited

/-- Addressing of a bound texture outside its edges, on both axes. -/
inductive WrapMode where
  | clampToEdge
  | mirroredRepeat
  | repeated
deriving DecidableEq, Inhabited

/-- How a bound texture is read. -/
structure Sampler where
  mag : MagFilter := .linear
  min : MinFilter := .linear
  wrap : WrapMode := .repeated
deriving DecidableEq, Inhabited

namespace MagFilter

/-- The filter a setting comes down to. -/
def ofSetting : Option MagSetting → MagFilter
  | some .nearest => .nearest
  | some .linear | some .unrecognized | none => .linear

/-- Its name in output. -/
def name : MagFilter → String
  | .nearest => "Nearest"
  | .linear => "Linear"

end MagFilter

namespace MinFilter

/-- The filter a setting comes down to. -/
def ofSetting : Option MinSetting → MinFilter
  | some .nearest => .nearest
  | some .nearestMipMapNearest => .nearestMipNearest
  | some .nearestMipMapLinear => .nearestMipLinear
  | some .linearMipMapNearest => .linearMipNearest
  | some .linearMipMapLinear => .linearMipLinear
  | some .linear | some .unrecognized | none => .linear

/-- Its name in output. -/
def name : MinFilter → String
  | .nearest => "Nearest"
  | .nearestMipNearest => "NearestMipNearest"
  | .nearestMipLinear => "NearestMipLinear"
  | .linear => "Linear"
  | .linearMipNearest => "LinearMipNearest"
  | .linearMipLinear => "LinearMipLinear"

end MinFilter

namespace WrapMode

/-- The mode a setting comes down to. -/
def ofSetting : Option WrapSetting → WrapMode
  | some .clamp => .clampToEdge
  | some .mirror => .mirroredRepeat
  | some .repeated | some .unrecognized | none => .repeated

/-- Its name in output. -/
def name : WrapMode → String
  | .clampToEdge => "ClampToEdge"
  | .mirroredRepeat => "MirroredRepeat"
  | .repeated => "Repeat"

end WrapMode

/-- The sampler the settings of an input come down to. -/
def Texture.sampler (t : Texture) : Sampler :=
  ⟨.ofSetting t.mag, .ofSetting t.min, .ofSetting t.wrap⟩

end ShaderChannels
