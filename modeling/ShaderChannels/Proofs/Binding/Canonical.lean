import ShaderChannels.Binding.Resolve

/-!
# Canonical settings

A setting outside the vocabulary does what the default does.  So an input may be given the default
instead, and `Binder.resolve_canonical` says that nothing comes of it: neither the sampler nor the
source of the input, nor what becomes of it in a resolution.

An absent setting does not do what the default does, as an image needs all of its settings.
-/

namespace ShaderChannels

/-! ## Settings -/

/-- The setting that does the same within the vocabulary. -/
def MagSetting.canonical : MagSetting → MagSetting
  | .unrecognized => .linear
  | s => s

/-- The setting that does the same within the vocabulary. -/
def MinSetting.canonical : MinSetting → MinSetting
  | .unrecognized => .linear
  | s => s

/-- The setting that does the same within the vocabulary. -/
def WrapSetting.canonical : WrapSetting → WrapSetting
  | .unrecognized => .repeated
  | s => s

theorem MagFilter.ofSetting_canonical (s : Option MagSetting) :
    ofSetting (s.map .canonical) = ofSetting s := by
  rcases s with _ | _ | _ <;> rfl

theorem MinFilter.ofSetting_canonical (s : Option MinSetting) :
    ofSetting (s.map .canonical) = ofSetting s := by
  rcases s with _ | _ | _ <;> rfl

theorem WrapMode.ofSetting_canonical (s : Option WrapSetting) :
    ofSetting (s.map .canonical) = ofSetting s := by
  rcases s with _ | _ | _ <;> rfl

/-! ## Inputs -/

/-- The input with settings of the vocabulary. -/
def Texture.canonical (t : Texture) : Texture :=
  { t with
    mag := t.mag.map .canonical
    min := t.min.map .canonical
    wrap := t.wrap.map .canonical }

/-- The buffer with settings of the vocabulary. -/
def Buffer.canonical (b : Buffer) : Buffer := { b with textures := b.textures.map .canonical }

namespace Texture

@[simp] theorem sampler_canonical (t : Texture) : t.canonical.sampler = t.sampler := by
  simp only [sampler, canonical, MagFilter.ofSetting_canonical, MinFilter.ofSetting_canonical,
    WrapMode.ofSetting_canonical]

@[simp] theorem hasSettings_canonical (t : Texture) : t.canonical.hasSettings = t.hasSettings := by
  simp only [hasSettings, canonical, Option.isSome_map]

@[simp] theorem source_canonical (t : Texture) : t.canonical.source = t.source := by
  rw [source, source, hasSettings_canonical]
  rfl

end Texture

/-! ## Resolutions -/

namespace Binder

variable (b : Binder)

theorem outcome_canonical (i : Nat) (buffer : Buffer) (t : Texture) :
    b.outcome i buffer.canonical t.canonical = b.outcome i buffer t := by
  rw [outcome, outcome, Texture.source_canonical, Texture.sampler_canonical]
  rfl

theorem outcomes_canonical (i : Nat) (buffer : Buffer) :
    b.outcomes i buffer.canonical = b.outcomes i buffer := by
  show (buffer.textures.map .canonical).map (b.outcome i buffer.canonical) = _
  rw [List.map_map]
  exact List.map_congr_left fun t _ ↦ outcome_canonical b i buffer t

theorem resolveBuffer_canonical (i : Nat) (buffer : Buffer) :
    b.resolveBuffer i buffer.canonical = b.resolveBuffer i buffer := by
  rw [resolveBuffer, resolveBuffer, outcomes_canonical]
  rfl

/-- Settings of the vocabulary may stand for those outside of it. -/
theorem resolve_canonical (buffers : List Buffer) :
    b.resolve (buffers.map .canonical) = b.resolve buffers := by
  simp only [resolve, List.zipIdx_map, List.map_map, List.flatMap_map, Function.comp_def,
    Prod.map_fst, Prod.map_snd, id_eq, outcomes_canonical, resolveBuffer_canonical]

end Binder

end ShaderChannels
