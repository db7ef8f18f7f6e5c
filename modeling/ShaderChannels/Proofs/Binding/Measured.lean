import ShaderChannels.Proofs.Binding.Probing
import ShaderChannels.Proofs.Binding.Supplier

/-!
# What is measured

Measuring looks for the image of a binding by itself: it goes through the inputs of the channel from
the last one, and takes the first local image it comes upon.  It looks for the faces of a cube map
whether or not its path has exactly one wildcard.  So a cube map that was rejected for its path, and
of which files exist nevertheless, is measured in place of the image that is bound before it.

`Probe.measuresBound_iff` says that nothing else goes wrong: all sizes are those of the images
bound, unless such a stray cube map has another size than the image it is measured for.
-/

namespace ShaderChannels

/-- Where the image is loaded from whose size stands for an operation: of a cube map, the first
face. -/
def Op.location? : Op → Option Location
  | .file _ location _ => some location
  | .cubeMap _ faces _ => some faces.east
  | .remote .. | .buffer .. | .selfFeedback _ | .keyboard _ => none

namespace Binder

/-- `Depicts b buffer t path`: the size of the image of `t` is that of the file at `path`, as
written in the document. -/
def Depicts (b : Binder) (buffer : Buffer) (t : Texture) (path : String) : Prop :=
  ∃ o, Loads { b with standalone := true } buffer t o ∧ o.location? = some (.path path)

end Binder

/-- A cube map that is rejected for its path, although files are found for it, the first of them at
`path`. -/
def Texture.Stray (host : Host) (t : Texture) (path : String) : Prop :=
  t.type = .cubeMap ∧ ∃ pattern faces, t.localTexture = some pattern ∧
    (¬ ∃ a z, CubeMap.Wildcard pattern a z) ∧ CubeMap.discover host pattern = some faces ∧
    faces.east = path

namespace Probe

open Binder

/-- The size of the image at a path of the document. -/
def measure? (p : Probe) (path : String) : Option (UInt32 × UInt32) :=
  match p.resolver.anchor path with
  | .ok file => p.disk.pictureSize? file
  | .error _ => none

/-- What the resolution of the document is made with. -/
def binder (p : Probe) (keyboard : Keyboard) (standalone : Bool) : Binder :=
  ⟨p.host, keyboard, standalone⟩

section

variable (p : Probe) (b : Binder)

/-- The image bound to `id` is that at `path`: the last operation that loads an image for `id` loads
this one, and the check that waits is about the input that names it. -/
def BoundImage (id : BindingId) (path : String) : Prop :=
  ∃ buffer t o after,
    Supplier b p.document.buffers id buffer t o after ∧ Depicts b buffer t path ∧
    boundOp? (b.resolve p.document.buffers) id = some o ∧
    o.location? = some (b.locate path) ∧
    (b.resolve p.document.buffers).checks.get? id =
      some ⟨id, t.file.getD buffer.file, t.settingLines⟩

/-- Whenever a size is measured for a binding, it is that of the image bound. -/
def MeasuresBound : Prop :=
  ∀ (σ : Type) (sink : Sink σ) (s : σ) (id : BindingId) (size : ChannelSize),
    (id, size) ∈ (p.run (b.resolve p.document.buffers) sink s).1 →
      ∃ path, BoundImage p b id path ∧ p.measure? path = some (size.width, size.height)

/-- A stray cube map on the channel of `id`, the last one after the image bound, has a size, and
another one than that image. -/
def Misled (id : BindingId) : Prop :=
  ∃ buffer t o before u after image path size,
    Supplier b p.document.buffers id buffer t o (before ++ u :: after) ∧
    Depicts b buffer t image ∧
    u.Stray p.host path ∧ (∀ v ∈ after, ∀ q, ¬ v.Stray p.host q) ∧
    p.measure? path = some size ∧ p.measure? image ≠ some size

end

variable {p : Probe} {b : Binder} {buffer : Buffer} {t : Texture} {o : Op} {id : BindingId}
  {after : List Texture} {path : String}

/-! ## Images of inputs -/

/-- The operation of an input loads the image that is found by measuring. -/
theorem location?_eq (hb : b.host = p.host) (h : Loads b buffer t o) :
    o.location? = (p.localImage? t).map b.locate := by
  obtain ⟨h, loads⟩ := h
  cases h with
  | @cubeMap q a z names type pattern wild first =>
    have found := (CubeMap.discover_eq_some_iff wild).mpr ⟨names, first, rfl⟩
    simp only [localImage?, Texture.source_of_cubeMap type, pattern, ← hb, found]
    rfl
  | buffer => cases loads
  | file type index mag min wrap written =>
    simp only [localImage?, Texture.source_of_localTexture type index mag min wrap written]
    rfl
  | remote type index mag min wrap none url =>
    simp only [localImage?, Texture.source_of_remoteTexture type index mag min wrap none url]
    rfl

/-- An input has an image whether or not paths are kept as written. -/
theorem loads_standalone (h : Loads b buffer t o) :
    ∃ o', Loads { b with standalone := true } buffer t o' := by
  obtain ⟨h, loads⟩ := h
  cases h with
  | cubeMap type pattern wild first => exact ⟨_, .cubeMap type pattern wild first, rfl⟩
  | buffer => cases loads
  | file type index mag min wrap written =>
    exact ⟨_, .file type index mag min wrap written, rfl⟩
  | remote type index mag min wrap none url =>
    exact ⟨_, .remote type index mag min wrap none url, rfl⟩

/-- The image of an input is the one that is found by measuring. -/
theorem depicts_iff (hb : b.host = p.host) (h : Loads b buffer t o) :
    Depicts b buffer t path ↔ p.localImage? t = some path := by
  have written : ∀ o', Loads { b with standalone := true } buffer t o' →
      o'.location? = (p.localImage? t).map .path :=
    fun o' h' ↦ location?_eq (b := { b with standalone := true }) hb h'
  constructor
  · rintro ⟨o', h', eq⟩
    rw [written o' h', Option.map_eq_some_iff] at eq
    obtain ⟨q, found, eq⟩ := eq
    rwa [← Location.path.inj eq]
  · intro found
    obtain ⟨o', h'⟩ := loads_standalone h
    refine ⟨o', h', ?_⟩
    rw [written o' h', found, Option.map_some]

/-- Of a cube map the first face is measured, if files are found for its path. -/
theorem localImage?_eq_some_iff_of_cubeMap (type : t.type = .cubeMap) :
    p.localImage? t = some path ↔ ∃ pattern faces, t.localTexture = some pattern ∧
      CubeMap.discover p.host pattern = some faces ∧ faces.east = path := by
  rw [localImage?, Texture.source_of_cubeMap type]
  cases t.localTexture with
  | none => simp
  | some pattern => simp

/-- No plain input is stray. -/
theorem not_stray_of_plain (type : t.type = .plain) : ¬ t.Stray p.host path := by
  rintro ⟨cube, -⟩
  rw [type] at cube
  cases cube

/-- Without an image of its own, an input is measured exactly if it is stray. -/
theorem localImage?_eq_some_iff (hb : b.host = p.host) (h : ∀ o, ¬ Loads b buffer t o) :
    p.localImage? t = some path ↔ t.Stray p.host path := by
  obtain ⟨c, hc, -⟩ := existsUnique_contributes b buffer t
  cases hc with
  | cubeMap type pattern wild first =>
    exact absurd ⟨.cubeMap type pattern wild first, rfl⟩ (h _)
  | pattern type unfit =>
    rw [localImage?_eq_some_iff_of_cubeMap type]
    constructor
    · rintro ⟨pattern, faces, written, found, rfl⟩
      exact ⟨type, pattern, faces, written, unfit pattern written, found, rfl⟩
    · rintro ⟨-, pattern, faces, written, -, found, rfl⟩
      exact ⟨pattern, faces, written, found, rfl⟩
  | @faces q a z type written wild missing =>
    rw [localImage?_eq_some_iff_of_cubeMap type]
    have none := (CubeMap.discover_eq_none_iff wild).mpr missing
    refine iff_of_false ?_ ?_
    · rintro ⟨q', faces, written', found, -⟩
      obtain rfl : q = q' := Option.some.inj (written.symm.trans written')
      rw [hb, found] at none
      cases none
    · rintro ⟨-, q', faces, written', unfit, -⟩
      obtain rfl : q = q' := Option.some.inj (written.symm.trans written')
      exact unfit ⟨a, z, wild⟩
  | buffer type index =>
    rw [localImage?, Texture.source_of_bufferIndex type index]
    exact iff_of_false (by simp) (not_stray_of_plain type)
  | file type index mag min wrap written =>
    exact absurd ⟨.file type index mag min wrap written, rfl⟩ (h _)
  | remote type index mag min wrap none url =>
    exact absurd ⟨.remote type index mag min wrap none url, rfl⟩ (h _)
  | incomplete type index lacking =>
    rw [localImage?, Texture.source_of_lacking type index lacking]
    exact iff_of_false (by simp) (not_stray_of_plain type)

/-! ## The image that is measured -/

theorem target?_eq (hb : p.document.buffers[id.buffer]? = some buffer) :
    p.target? id = (buffer.inputs id.channel).reverse.findSome? p.localImage? := by
  simp only [target?, hb, Buffer.inputs, List.filter_reverse]

/-- After the supplier of a binding, only stray cube maps are measured. -/
theorem localImage?_after (hb : b.host = p.host)
    (h : Supplier b p.document.buffers id buffer t o after) {u : Texture} (hu : u ∈ after) :
    p.localImage? u = some path ↔ u.Stray p.host path :=
  localImage?_eq_some_iff hb (h.last u hu)

theorem localImage?_after_eq_none (hb : b.host = p.host)
    (h : Supplier b p.document.buffers id buffer t o after) {u : Texture} (hu : u ∈ after) :
    p.localImage? u = none ↔ ∀ q, ¬ u.Stray p.host q := by
  rw [Option.eq_none_iff_forall_ne_some]
  exact forall_congr' fun q ↦ not_congr (localImage?_after hb h hu)

/-- The last stray cube map after the image bound is measured in its place. -/
theorem target?_of_stray {before : List Texture} {u : Texture} (hb : b.host = p.host)
    (h : Supplier b p.document.buffers id buffer t o (before ++ u :: after))
    (stray : u.Stray p.host path) (last : ∀ v ∈ after, ∀ q, ¬ v.Stray p.host q) :
    p.target? id = some path := by
  obtain ⟨first, declared⟩ := h.declared
  rw [target?_eq h.buffer_eq, findSome?_reverse_eq_some_iff]
  refine ⟨first ++ t :: before, u, after, by simp [declared], ?_, fun v hv ↦ ?_⟩
  · exact (localImage?_after hb h (by simp)).mpr stray
  · exact (localImage?_after_eq_none hb h (by simp [hv])).mpr (last v hv)

/-- With no stray cube map after it, the image bound is measured. -/
theorem target?_of_no_stray (hb : b.host = p.host)
    (h : Supplier b p.document.buffers id buffer t o after) (depicts : Depicts b buffer t path)
    (none : ∀ v ∈ after, ∀ q, ¬ v.Stray p.host q) : p.target? id = some path := by
  obtain ⟨first, declared⟩ := h.declared
  rw [target?_eq h.buffer_eq, findSome?_reverse_eq_some_iff]
  refine ⟨first, t, after, declared, (depicts_iff hb h.loads).mp depicts, fun v hv ↦ ?_⟩
  exact (localImage?_after_eq_none hb h hv).mpr (none v hv)

/-! ## Sizes -/

/-- If the last operation for a binding loads a local image, what is found is measured. -/
theorem size?_of_local {r : Resolution} (h : boundOp? r id = some o) {l : Location}
    (loc : o.location? = some l) : p.size? r id = (p.target? id).bind p.measure? := by
  rw [size?, h]
  cases o with
  | remote | buffer | selfFeedback | keyboard => cases loc
  | cubeMap | file =>
    cases p.target? id with
    | none => rfl
    | some path =>
      dsimp only [Option.map_some, Option.bind_some, measure?]
      cases p.resolver.anchor path <;> rfl

/-- If a size is measured for a binding, its last operation loads a local image. -/
theorem exists_local_of_size? {r : Resolution} {size : UInt32 × UInt32}
    (h : p.size? r id = some size) :
    ∃ o l, boundOp? r id = some o ∧ o.location? = some l := by
  obtain ⟨⟨o, last, own⟩, -⟩ := size?_eq_some_iff.mp h
  have bound := Resolution.lastImage_iff.mp last
  have loads := last.loadsImage
  cases o with
  | cubeMap c faces sampler => exact ⟨_, _, bound, rfl⟩
  | file c location sampler => exact ⟨_, _, bound, rfl⟩
  | remote c url sampler => exact absurd rfl (own c url sampler)
  | buffer | selfFeedback | keyboard => cases loads

/-- The sizes of a run: of the bindings that have a check, all that can be measured. -/
theorem mem_run_iff {σ : Type} {r : Resolution} {sink : Sink σ} {s : σ} {size : ChannelSize} :
    (id, size) ∈ (p.run r sink s).1 ↔
      (∃ c, r.checks.get? id = some c) ∧ p.size? r id = some (size.width, size.height) ∧
        size.depth = 1 := by
  rw [(run_exact p r sink s).1, List.mem_map]
  simp only [completions, List.mem_filterMap, completion?, Option.map_eq_some_iff]
  constructor
  · rintro ⟨e, ⟨c, waits, ⟨width, height⟩, found, rfl⟩, eq⟩
    cases eq
    exact ⟨⟨c, Checks.get?_of_mem waits⟩, found, rfl⟩
  · obtain ⟨width, height, depth⟩ := size
    rintro ⟨⟨c, waits⟩, found, rfl⟩
    obtain rfl := Checks.id_eq_of_get? waits
    exact ⟨_, ⟨c, List.mem_of_find?_eq_some waits, _, found, rfl⟩, rfl⟩

/-! ## What is measured is what is bound -/

/-- The image of the supplier is the one bound. -/
theorem boundImage_of_supplier (hb : b.host = p.host)
    (h : Supplier b p.document.buffers id buffer t o after) (depicts : Depicts b buffer t path) :
    BoundImage p b id path := by
  refine ⟨buffer, t, o, after, h, depicts, ?_, ?_, ?_⟩
  · exact boundOp?_eq_some_iff.mpr ⟨buffer, t, after, h⟩
  · rw [location?_eq hb h.loads, (depicts_iff hb h.loads).mp depicts, Option.map_some]
  · exact get?_checks_eq_some_iff.mpr ⟨buffer, t, o, after, h, rfl⟩

/-- Only one image is bound. -/
theorem BoundImage.path_eq (hb : b.host = p.host) {image : String}
    (h : BoundImage p b id image) (h' : Supplier b p.document.buffers id buffer t o after)
    (depicts : Depicts b buffer t path) : image = path := by
  obtain ⟨_, _, _, _, supplier, image_depicts, -⟩ := h
  obtain ⟨rfl, rfl, rfl⟩ := h'.unique supplier
  rw [depicts_iff hb supplier.loads] at depicts image_depicts
  exact Option.some.inj (image_depicts.symm.trans depicts)

/-- A size measured belongs to the image bound, unless a stray cube map comes after it. -/
theorem boundImage_of_size? (hb : b.host = p.host) {size : UInt32 × UInt32}
    (h : p.size? (b.resolve p.document.buffers) id = some size) (fair : ¬ Misled p b id) :
    ∃ path, BoundImage p b id path ∧ p.measure? path = some size := by
  obtain ⟨o, l, bound, loc⟩ := exists_local_of_size? h
  obtain ⟨buffer, t, after, supplier⟩ := boundOp?_eq_some_iff.mp bound
  obtain ⟨image, found, -⟩ : ∃ image, p.localImage? t = some image ∧ b.locate image = l := by
    rwa [location?_eq hb supplier.loads, Option.map_eq_some_iff] at loc
  have depicts := (depicts_iff hb supplier.loads).mpr found
  refine ⟨image, boundImage_of_supplier hb supplier depicts, ?_⟩
  rw [size?_of_local bound loc] at h
  -- Look for the last stray cube map after the image bound.
  cases strays : after.reverse.findSome? p.localImage? with
  | none =>
    have target := target?_of_no_stray hb supplier depicts fun v hv ↦
      (localImage?_after_eq_none hb supplier hv).mp
        (List.findSome?_eq_none_iff.mp strays v (List.mem_reverse.mpr hv))
    rwa [target, Option.bind_some] at h
  | some path =>
    obtain ⟨before, u, later, rfl, found, last⟩ := findSome?_reverse_eq_some_iff.mp strays
    have stray := (localImage?_after hb supplier (by simp)).mp found
    have last : ∀ v ∈ later, ∀ q, ¬ v.Stray p.host q := fun v hv ↦
      (localImage?_after_eq_none hb supplier (by simp [hv])).mp (last v hv)
    rw [target?_of_stray hb supplier stray last, Option.bind_some] at h
    by_contra other
    exact fair ⟨buffer, t, o, before, u, later, image, path, size, supplier, depicts, stray, last, h,
      other⟩

/-- A stray cube map of another size is measured in place of the image bound. -/
theorem Misled.size?_eq (hb : b.host = p.host) (h : Misled p b id) :
    ∃ size, p.size? (b.resolve p.document.buffers) id = some size ∧
      ∀ path, BoundImage p b id path → p.measure? path ≠ some size := by
  obtain ⟨buffer, t, o, before, u, after, image, path, size, supplier, depicts, stray, last,
    measured, other⟩ := h
  refine ⟨size, ?_, fun q bound ↦ ?_⟩
  · have bound := boundOp?_eq_some_iff.mpr ⟨buffer, t, _, supplier⟩
    have loc := location?_eq hb supplier.loads
    rw [(depicts_iff hb supplier.loads).mp depicts, Option.map_some] at loc
    rw [size?_of_local bound loc, target?_of_stray hb supplier stray last, Option.bind_some,
      measured]
  · rwa [bound.path_eq hb supplier depicts]

/-- So a run that is misled does not measure what is bound. -/
theorem Misled.not_measuresBound (hb : b.host = p.host) (h : Misled p b id) :
    ¬ MeasuresBound p b := by
  intro bounds
  obtain ⟨size, found, other⟩ := h.size?_eq hb
  obtain ⟨buffer, t, o, before, u, after, -, -, -, supplier, -⟩ := h
  have waits := get?_checks_eq_some_iff.mpr ⟨buffer, t, o, _, supplier, rfl⟩
  have measured : (id, (⟨size.1, size.2, 1⟩ : ChannelSize)) ∈
      (p.run (b.resolve p.document.buffers) .collecting []).1 :=
    mem_run_iff.mpr ⟨⟨_, waits⟩, found, rfl⟩
  obtain ⟨path, bound, same⟩ := bounds _ _ _ _ _ measured
  exact other path bound same

/-- **Measuring what is bound.**  Every size measured for a binding is that of the image bound to it
exactly if no stray cube map of another size follows that image on its channel. -/
theorem measuresBound_iff (p : Probe) (keyboard : Keyboard) (standalone : Bool) :
    MeasuresBound p (p.binder keyboard standalone) ↔
      ∀ id, ¬ Misled p (p.binder keyboard standalone) id := by
  constructor
  · exact fun bounds id misled ↦ misled.not_measuresBound rfl bounds
  · intro fair σ sink s id size h
    obtain ⟨-, found, -⟩ := mem_run_iff.mp h
    exact boundImage_of_size? rfl found (fair id)

/-- A cube map without a wildcard is rejected, but its one file is measured in place of the image
that is bound to the channel. -/
theorem not_measuresBound_sky :
    let disk : Disk := .ofList [("noise.png", .file ⟨none, some ⟨.png, 64, 64⟩⟩),
      ("sky.png", .file ⟨none, some ⟨.png, 100, 50⟩⟩)]
    let resolver : PathResolver := ⟨"", .ofList []⟩
    let noise : Texture :=
      { channel := 0, localTexture := some "noise.png", mag := some .linear, min := some .linear,
        wrap := some .repeated, magLine := some 3 }
    let sky : Texture :=
      { channel := 0, localTexture := some "sky.png", type := .cubeMap, typeLine := some 7 }
    let image : Buffer := { name := "Image", file := "image.glsl", textures := [noise, sky] }
    let p : Probe := ⟨{ buffers := [image] }, resolver, .onDisk disk resolver Host.fileScheme, disk⟩
    ¬ MeasuresBound p (p.binder {} false) := by
  intro disk resolver noise sky image p
  have unfit : ¬ ∃ a z, CubeMap.Wildcard "sky.png" a z := by
    rw [← CubeMap.hasSingleWildcard_iff]
    decide
  have last : ∀ o, ¬ Loads (p.binder {} false) image sky o :=
    loading?_eq_none_iff.mp (by decide)
  have stray : sky.Stray p.host "sky.png" := by
    refine ⟨rfl, "sky.png", ⟨"sky.png", "sky.png", "sky.png", "sky.png", "sky.png", "sky.png"⟩, rfl,
      unfit, ?_, rfl⟩
    decide +kernel
  have misled : Misled p (p.binder {} false) ⟨0, 0⟩ := by
    refine ⟨image, noise, _, [], sky, [], "noise.png", "sky.png", (100, 50), ⟨rfl, ⟨[], rfl⟩,
      ⟨.file rfl rfl rfl rfl rfl rfl, rfl⟩, ?_⟩, ⟨_, ⟨.file rfl rfl rfl rfl rfl rfl, rfl⟩, rfl⟩,
      stray, ?_, ?_, ?_⟩
    · simpa using last
    · simp
    · decide +kernel
    · decide +kernel
  exact misled.not_measuresBound rfl

end Probe

end ShaderChannels
