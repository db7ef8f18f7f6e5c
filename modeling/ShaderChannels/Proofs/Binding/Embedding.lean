import ShaderChannels.Proofs.Binding.Contribution

/-!
# Embedding

A resolution for use on its own keeps local paths as written; one for use inside of a runtime has
references of the host in their places.  Nothing else tells the two apart, so the second is the image
of the first under a change of the locations.

* `Outcome.embed`, `Resolution.embed` — the change, for one input and for a resolution.
* `Binder.outcome_embed` — what becomes of an input changes that way.
* `Binder.resolve_embed` — hence so does the resolution.
-/

namespace ShaderChannels

variable {f : String → String}

/-- A reference in the place of a path. -/
def Location.embed (f : String → String) : Location → Location
  | .path p => .resource (f p)
  | .resource r => .resource r

/-- References in the places of paths, in the one location of an image or in all six of a cube
map. -/
def Op.embed (f : String → String) : Op → Op
  | .cubeMap c faces s => .cubeMap c (faces.map (Location.embed f)) s
  | .buffer c source => .buffer c source
  | .file c l s => .file c (l.embed f) s
  | .remote c u s => .remote c u s
  | .selfFeedback c => .selfFeedback c
  | .keyboard k => .keyboard k

namespace Outcome

/-- Checks and errors know nothing of locations. -/
def embed (f : String → String) : Outcome → Outcome
  | .loads o c => .loads (o.embed f) c
  | .binds o => .binds (o.embed f)
  | .rejected r => .rejected r
  | .dropped => .dropped

@[simp] theorem op?_embed (o : Outcome) : (o.embed f).op? = o.op?.map (Op.embed f) := by
  cases o <;> rfl

@[simp] theorem report?_embed (o : Outcome) : (o.embed f).report? = o.report? := by
  cases o <;> rfl

@[simp] theorem check?_embed (o : Outcome) : (o.embed f).check? = o.check? := by
  cases o <;> rfl

end Outcome

def ResolvedBuffer.embed (f : String → String) (r : ResolvedBuffer) : ResolvedBuffer where
  index := r.index
  ops := r.ops.map (Op.embed f)

/-- References in the places of all paths of a resolution. -/
def Resolution.embed (f : String → String) (r : Resolution) : Resolution where
  buffers := r.buffers.map (ResolvedBuffer.embed f)
  reports := r.reports
  checks := r.checks

theorem Resolution.ops_embed (r : Resolution) (i : Nat) :
    (r.embed f).ops i = (r.ops i).map (Op.embed f) := by
  rw [ops, ops, embed, List.getElem?_map]
  cases r.buffers[i]? <;> rfl

namespace Binder

/-- What becomes of an input inside of a runtime is what becomes of it otherwise, embedded. -/
theorem outcome_embed (b : Binder) (i : Nat) (buffer : Buffer) (t : Texture) :
    { b with standalone := false }.outcome i buffer t =
      ({ b with standalone := true }.outcome i buffer t).embed b.host.reference := by
  rw [outcome, outcome]
  cases t.source with
  | cubeMap pattern =>
    dsimp only
    cases pattern.filter CubeMap.hasSingleWildcard with
    | none => rfl
    | some pattern =>
      dsimp only
      cases CubeMap.discover b.host pattern <;> rfl
  | buffer source => rfl
  | localFile p => rfl
  | remoteUrl u => rfl
  | incomplete => rfl

theorem outcomes_embed (b : Binder) (i : Nat) (buffer : Buffer) :
    { b with standalone := false }.outcomes i buffer =
      ({ b with standalone := true }.outcomes i buffer).map (Outcome.embed b.host.reference) := by
  rw [outcomes, outcomes, List.map_map]
  exact List.map_congr_left fun t _ ↦ outcome_embed b i buffer t

theorem resolveBuffer_embed (b : Binder) (i : Nat) (buffer : Buffer) :
    { b with standalone := false }.resolveBuffer i buffer =
      ({ b with standalone := true }.resolveBuffer i buffer).embed b.host.reference := by
  rw [resolveBuffer, resolveBuffer, ResolvedBuffer.embed, outcomes_embed]
  simp only [List.filterMap_map, Function.comp_def, Outcome.op?_embed, List.map_append,
    List.map_filterMap, apply_ite (List.map (Op.embed b.host.reference))]
  rfl

/-- A resolution inside of a runtime is the resolution otherwise, embedded. -/
theorem resolve_embed (b : Binder) (buffers : List Buffer) :
    { b with standalone := false }.resolve buffers =
      ({ b with standalone := true }.resolve buffers).embed b.host.reference := by
  simp only [resolve, Resolution.embed, outcomes_embed, resolveBuffer_embed, List.filterMap_flatMap,
    List.filterMap_map, Function.comp_def, Outcome.report?_embed, Outcome.check?_embed,
    List.map_map]

end Binder

end ShaderChannels
