import ShaderChannels.Binding.CubeMap
import ShaderChannels.Definition.Sampler

/-!
# Binding operations

What a runtime has to do to fill the channels of a buffer.
-/

namespace ShaderChannels

/-- One channel of one buffer. -/
structure BindingId where
  buffer : Nat
  channel : Channel
deriving DecidableEq, Inhabited

namespace BindingId

/-- Ids are ordered by buffer and then by channel. -/
instance instLT : LT BindingId where
  lt a b := a.buffer < b.buffer ∨ a.buffer = b.buffer ∧ a.channel < b.channel

theorem lt_iff {a b : BindingId} :
    a < b ↔ a.buffer < b.buffer ∨ a.buffer = b.buffer ∧ a.channel < b.channel := Iff.rfl

instance decidableLT : DecidableLT BindingId := fun _ _ ↦ decidable_of_iff _ lt_iff.symm

theorem lt_trans {a b c : BindingId} (h : a < b) (k : b < c) : a < c := by
  rw [lt_iff, UInt8.lt_iff_toNat_lt] at *
  omega

theorem lt_irrefl (a : BindingId) : ¬ a < a := by
  rw [lt_iff, UInt8.lt_iff_toNat_lt]
  omega

/-- Of two ids that differ, one comes before the other. -/
theorem lt_of_not_lt {a b : BindingId} (h : ¬ a < b) (ne : a ≠ b) : b < a := by
  rw [lt_iff, UInt8.lt_iff_toNat_lt] at *
  have : ¬ (a.buffer = b.buffer ∧ a.channel.toNat = b.channel.toNat) := by
    rintro ⟨hb, hc⟩
    exact ne (by cases a; cases b; simp_all [UInt8.toNat_inj])
  omega

end BindingId

/-- Where a local image is loaded from. -/
inductive Location where
  /-- A path as written. -/
  | path (p : String)
  /-- A reference that a host made. -/
  | resource (r : String)
deriving DecidableEq, Inhabited

/-- The texture that shows the state of the keyboard. -/
structure Keyboard where
  label : String := "keyboard"
  width : UInt32 := 256
  height : UInt32 := 3
deriving DecidableEq, Inhabited

/-- One operation. -/
inductive Op where
  /-- Six local images make up a cube map. -/
  | cubeMap (channel : Channel) (faces : Faces Location) (sampler : Sampler)
  /-- The output of another buffer. -/
  | buffer (channel : Channel) (source : Nat)
  /-- A local image. -/
  | file (channel : Channel) (location : Location) (sampler : Sampler)
  /-- A remote image. -/
  | remote (channel : Channel) (url : String) (sampler : Sampler)
  /-- The previous frame of the buffer itself. -/
  | selfFeedback (channel : Channel)
  /-- The keyboard, which has a place of its own besides the channels. -/
  | keyboard (texture : Keyboard)
deriving DecidableEq

namespace Op

/-- The channel an operation fills. -/
def channel? : Op → Option Channel
  | .cubeMap c _ _ | .buffer c _ | .file c _ _ | .remote c _ _ | .selfFeedback c => some c
  | .keyboard _ => none

/-- Whether an image has to be loaded, whose size becomes known only then. -/
def loadsImage : Op → Bool
  | .cubeMap .. | .file .. | .remote .. => true
  | .buffer .. | .selfFeedback _ | .keyboard _ => false

end Op

end ShaderChannels
