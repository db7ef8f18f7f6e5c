import ShaderChannels.Binding.Resolve
import ShaderChannels.Document.Decode

/-!
# Probing

Without a runtime, the sizes of local images are measured on disk and the checks completed with
them.  Remote images are never fetched.  The image measured for a binding is that of the last input
of its channel that names a local image; of a cube map it is the first face.
-/

namespace ShaderChannels

/-- What measuring depends on. -/
structure Probe where
  document : Document
  /-- Anchors the paths of the document. -/
  resolver : PathResolver
  host : Host
  disk : Disk

namespace Probe

/-- The local image an input names. -/
def localImage? (p : Probe) (t : Texture) : Option String :=
  match t.source with
  | .localFile path => some path
  | .cubeMap (some pattern) => (CubeMap.discover p.host pattern).map Faces.east
  | _ => none

/-- The last local image named for a binding. -/
def target? (p : Probe) (id : BindingId) : Option String :=
  match p.document.buffers[id.buffer]? with
  | none => none
  | some b => (b.textures.reverse.filter (·.channel == id.channel)).findSome? p.localImage?

/-- The last operation of a resolution that loads an image for a binding. -/
def boundOp? (r : Resolution) (id : BindingId) : Option Op :=
  (r.ops id.buffer).reverse.find? fun op ↦ op.loadsImage && op.channel? == some id.channel

/-- The size measured for a binding, if there is an image to be measured. -/
def size? (p : Probe) (r : Resolution) (id : BindingId) : Option (UInt32 × UInt32) :=
  match boundOp? r id with
  | none | some (.remote ..) => none
  | some _ =>
    match (p.target? id).map p.resolver.anchor with
    | some (.ok path) => p.disk.pictureSize? path
    | _ => none

variable {σ : Type}

/-- Measures the images of some bindings, one after the other, and completes their checks. -/
def completeAll (p : Probe) (r : Resolution) (sink : Sink σ) :
    List BindingId → Checks → σ → List (BindingId × ChannelSize) × Checks × σ
  | [], checks, s => ([], checks, s)
  | id :: ids, checks, s =>
    match p.size? r id with
    | none => completeAll p r sink ids checks s
    | some (w, h) =>
      let (size, checks, s) := checks.complete id w h sink s
      let (sizes, checks, s) := completeAll p r sink ids checks s
      ((size.map (id, ·)).toList ++ sizes, checks, s)

/-- Measures the images of all bindings that have a check: the sizes, what is left of the
resolution, and the sink. -/
def run (p : Probe) (r : Resolution) (sink : Sink σ) (s : σ) :
    List (BindingId × ChannelSize) × Resolution × σ :=
  let (sizes, checks, s) := p.completeAll r sink r.checks.ids r.checks s
  (sizes, { r with checks }, s)

end Probe

end ShaderChannels
