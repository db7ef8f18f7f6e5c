import ShaderChannels.Proofs.Binding.Embedding
import ShaderChannels.Proofs.Binding.Occupancy

/-!
# Two resolutions side by side

A change of the locations leaves a reference as it is, so that an equation with such a change does
not say where the paths are.  Side by side, the operations of the two resolutions are told apart by
what they hold: on the one side paths as they are written, on the other side the references of the
same paths, and everything else on both.

* `Op.Embeds`, `Resolution.Embeds` — how the two sides correspond.
* `Binder.Contributes.embeds` — the operation of an input, for use on its own, holds paths only.
* `Binder.resolve_embeds` — so the two resolutions of the same buffers differ in their locations and
  in nothing else.
-/

namespace ShaderChannels

variable {f : String → String}

/-- `Embeds f o p`: where `o` has a path, `p` has its reference. -/
inductive Op.Embeds (f : String → String) : Op → Op → Prop
  | /-- All six faces of a cube map. -/
    cubeMap (c : Channel) (paths : Faces String) (s : Sampler) :
      Embeds f (.cubeMap c (paths.map .path) s) (.cubeMap c (paths.map fun p ↦ .resource (f p)) s)
  | /-- A local image. -/
    file (c : Channel) (p : String) (s : Sampler) :
      Embeds f (.file c (.path p) s) (.file c (.resource (f p)) s)
  | buffer (c : Channel) (source : Nat) : Embeds f (.buffer c source) (.buffer c source)
  | remote (c : Channel) (url : String) (s : Sampler) : Embeds f (.remote c url s) (.remote c url s)
  | selfFeedback (c : Channel) : Embeds f (.selfFeedback c) (.selfFeedback c)
  | keyboard (k : Keyboard) : Embeds f (.keyboard k) (.keyboard k)

/-- The same buffers with the same operations in the same order, references in the places of paths;
the same errors and the same checks. -/
structure Resolution.Embeds (f : String → String) (r q : Resolution) : Prop where
  buffers : List.Forall₂ (fun x y ↦ x.index = y.index ∧ List.Forall₂ (Op.Embeds f) x.ops y.ops)
    r.buffers q.buffers
  reports : r.reports = q.reports
  checks : r.checks = q.checks

namespace Binder

variable {b : Binder} {buffer : Buffer} {t : Texture} {o : Op} {i : Nat}

/-- For use on its own, an input is bound by the paths as they are written. -/
theorem Contributes.embeds (h : Contributes { b with standalone := true } buffer t (.op o)) :
    Op.Embeds f o (o.embed f) := by
  cases h with
  | @cubeMap p a z names => exact .cubeMap t.channel (names.map (CubeMap.facePath a z)) t.sampler
  | buffer => exact .buffer _ _
  | @file p => exact .file t.channel p t.sampler
  | remote => exact .remote _ _ _

theorem embeds_of_mem_ops (h : o ∈ ({ b with standalone := true }.resolveBuffer i buffer).ops) :
    Op.Embeds f o (o.embed f) := by
  rcases mem_ops_resolveBuffer_iff.mp h with ⟨t, -, contributes⟩ | own
  · exact contributes.embeds
  · rcases mem_ownOps_iff.mp own with ⟨-, rfl⟩ | ⟨-, rfl⟩
    · exact .selfFeedback _
    · exact .keyboard _

/-- **Resolutions differ in locations only.**  For any host, keyboard and buffers, the resolution for
use inside of a runtime is that for use on its own with the reference of each path in its place.  The
latter has paths in all places of local images, so there is no other way to read this: buffer by
buffer the operations correspond one to one and in order, and the errors and checks are the same. -/
theorem resolve_embeds (host : Host) (keyboard : Keyboard) (buffers : List Buffer) :
    (resolve ⟨host, keyboard, true⟩ buffers).Embeds host.reference
        (resolve ⟨host, keyboard, false⟩ buffers) ∧
      resolve ⟨host, keyboard, false⟩ buffers =
        (resolve ⟨host, keyboard, true⟩ buffers).embed host.reference := by
  have embedded : resolve ⟨host, keyboard, false⟩ buffers =
      (resolve ⟨host, keyboard, true⟩ buffers).embed host.reference :=
    resolve_embed ⟨host, keyboard, true⟩ buffers
  refine ⟨⟨?_, ?_, ?_⟩, embedded⟩
  · rw [embedded, Resolution.embed, List.forall₂_map_right_iff, List.forall₂_same]
    intro x hx
    refine ⟨rfl, ?_⟩
    rw [ResolvedBuffer.embed, List.forall₂_map_right_iff, List.forall₂_same]
    intro o ho
    obtain ⟨⟨buffer, i⟩, -, rfl⟩ := List.mem_map.mp hx
    exact embeds_of_mem_ops (b := ⟨host, keyboard, true⟩) ho
  · rw [embedded]
    rfl
  · rw [embedded]
    rfl

end Binder

end ShaderChannels
