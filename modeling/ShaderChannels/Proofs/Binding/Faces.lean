import ShaderChannels.Proofs.Binding.Embedding
import ShaderChannels.Proofs.Binding.Measured
import ShaderChannels.Proofs.Binding.Occupancy

/-!
# Faces on disk

The path of a face is anchored three times: to see whether its file exists, to make the reference
that it is loaded by, and to measure it.  The first time an error means that there is no file, the
second time that the path is referred to as written.  For a face that is bound there is no error, and
it is the same file each time.

* `Faces.exists_forall₂` — six files, if there is one for each face.
* `Found.map_reference` — faces whose files exist are referred to by these files.
* `Binder.bound_faces` — existence, reference and measure of the faces of a bound cube map.
-/

namespace ShaderChannels

namespace Faces

variable {α β γ : Type}

/-- What there is for each face can be chosen for all of them. -/
theorem exists_forall₂ {R : α → β → Prop} {f : Faces α} (h : ∀ x ∈ f.toList, ∃ y, R x y) :
    ∃ g : Faces β, List.Forall₂ R f.toList g.toList := by
  simp only [toList, List.forall_mem_cons] at h
  obtain ⟨⟨e, he⟩, ⟨w, hw⟩, ⟨u, hu⟩, ⟨d, hd⟩, ⟨n, hn⟩, ⟨s, hs⟩, -⟩ := h
  exact ⟨⟨e, w, u, d, n, s⟩, .cons he (.cons hw (.cons hu (.cons hd (.cons hn (.cons hs .nil)))))⟩

theorem toList_injective : Function.Injective (toList : Faces α → List α) := by
  rintro ⟨⟩ ⟨⟩ h
  simpa [toList] using h

theorem map_map (g : β → γ) (h : α → β) (f : Faces α) : (f.map h).map g = f.map (g ∘ h) := rfl

/-- Six things that look alike in two ways. -/
theorem map_eq_map_of_forall₂ {f : Faces α} {g : Faces β} {u : α → γ} {v : β → γ}
    (h : List.Forall₂ (fun x y ↦ u x = v y) f.toList g.toList) : f.map u = g.map v := by
  apply toList_injective
  rw [toList_map, toList_map, ← List.forall₂_eq_eq_eq, List.forall₂_map_left_iff,
    List.forall₂_map_right_iff]
  exact h

end Faces

/-- `Found r disk paths files`: each path is anchored to the file of the same face, and that is
there. -/
def Found (r : PathResolver) (disk : Disk) (paths files : Faces String) : Prop :=
  List.Forall₂ (fun path file ↦ r.anchor path = .ok file ∧ (disk file).isFile) paths.toList
    files.toList

variable {disk : Disk} {r : PathResolver} {scheme : String} {keyboard : Keyboard}
  {paths files : Faces String}

/-- The faces that are found exist. -/
theorem fileExists_of_discover {host : Host} {pattern : String} {faces : Faces String}
    (h : CubeMap.discover host pattern = some faces) :
    ∀ path ∈ faces.toList, host.fileExists path := by
  have all := List.find?_some h
  exact List.all_eq_true.mp all

/-- If all faces of a pattern exist on a disk, then each is anchored to some file there. -/
theorem exists_found (h : ∀ path ∈ paths.toList, (Host.onDisk disk r scheme).fileExists path) :
    ∃ files, Found r disk paths files :=
  Faces.exists_forall₂ fun path hpath ↦ Host.fileExists_onDisk_iff.mp (h path hpath)

/-- Files that are found are what the paths are referred to by. -/
theorem Found.map_reference (h : Found r disk paths files) (scheme : String) :
    paths.map (Host.onDisk disk r scheme).reference = files.map (scheme ++ ·) :=
  Faces.map_eq_map_of_forall₂ (h.imp fun _ _ there ↦ Host.reference_onDisk_of_ok there.1)

theorem Found.measure?_east (h : Found r disk paths files) (document : Document) (host : Host) :
    (Probe.mk document r host disk).measure? paths.east = disk.pictureSize? files.east := by
  have east : r.anchor paths.east = .ok files.east := (List.forall₂_cons.mp h).1.1
  rw [Probe.measure?, east]

namespace Binder

open CubeMap

variable {b : Binder} {buffers : List Buffer} {i k : Nat} {c : Channel} {s : Sampler}

/-- The operation that makes up a cube map comes from an input with a pattern, all of whose faces
exist by the names of some convention. -/
theorem exists_pattern {faces : Faces Location}
    (h : .cubeMap c faces s ∈ (b.resolve buffers).ops i) :
    ∃ buffer t pattern names, buffers[i]? = some buffer ∧ t ∈ buffer.textures ∧ t.channel = c ∧
      t.type = .cubeMap ∧ t.localTexture = some pattern ∧ hasSingleWildcard pattern ∧
      names ∈ conventions ∧ discover b.host pattern = some (names.map (fill pattern)) ∧
      faces = (names.map (fill pattern)).map b.locate := by
  obtain ⟨buffer, hb, ⟨t, ht, add⟩ | own⟩ := mem_ops_resolve_iff.mp h
  · cases add with
    | @cubeMap p a z names type written wild first =>
      have found := (discover_eq_some_iff wild).mpr ⟨names, first, rfl⟩
      have single := (hasSingleWildcard_iff p).mpr ⟨a, z, wild⟩
      rw [← fill_eq wild] at found
      refine ⟨buffer, t, p, names, hb, ht, rfl, type, written, single, first.mem, found, ?_⟩
      rw [Faces.map_map, fill_eq wild]
      rfl
  · exact absurd (loadsImage_of_mem_ownOps own) (by simp [Op.loadsImage])

/-- **Faces that are bound are there.**  Inside of a runtime, each face of a cube map that is bound is
anchored to a file that exists, and is loaded by the scheme followed by the path of that file.  For
use on its own the same operation has the six paths as written, and by measuring them the size of
the same file is found. -/
theorem bound_faces {faces : Faces Location}
    (h : (((Binder.mk (.onDisk disk r scheme) keyboard false).resolve buffers).ops i)[k]? =
      some (.cubeMap c faces s)) :
    ∃ buffer t pattern names files,
      buffers[i]? = some buffer ∧ t ∈ buffer.textures ∧ t.channel = c ∧
      t.localTexture = some pattern ∧ hasSingleWildcard pattern ∧ names ∈ conventions ∧
      Found r disk (names.map (fill pattern)) files ∧
      faces = files.map (fun file ↦ .resource (scheme ++ file)) ∧
      (((Binder.mk (.onDisk disk r scheme) keyboard true).resolve buffers).ops i)[k]? =
        some (.cubeMap c ((names.map (fill pattern)).map .path) s) ∧
      ∀ document,
        (Probe.mk document r (.onDisk disk r scheme) disk).localImage? t =
          some (fill pattern names.east) ∧
        (Probe.mk document r (.onDisk disk r scheme) disk).measure? (fill pattern names.east) =
          disk.pictureSize? files.east := by
  have embedded := resolve_embed ⟨.onDisk disk r scheme, keyboard, false⟩ buffers
  dsimp only at embedded
  rw [embedded, Resolution.ops_embed, List.getElem?_map, Option.map_eq_some_iff] at h
  obtain ⟨o, ho, embed⟩ := h
  cases o with
  | cubeMap c' paths s' =>
    obtain ⟨rfl, rfl, rfl⟩ := Op.cubeMap.inj embed
    obtain ⟨buffer, t, pattern, names, hb, ht, channel, type, written, single, named, found, rfl⟩ :=
      exists_pattern (List.mem_of_getElem? ho)
    obtain ⟨files, there⟩ := exists_found (fileExists_of_discover found)
    refine ⟨buffer, t, pattern, names, files, hb, ht, channel, written, single, named, there, ?_, ho,
      fun document ↦ ⟨?_, there.measure?_east document _⟩⟩
    · have references (paths : Faces String) :
          (paths.map Location.path).map (Location.embed (Host.onDisk disk r scheme).reference) =
            (paths.map (Host.onDisk disk r scheme).reference).map Location.resource := rfl
      show ((names.map (fill pattern)).map Location.path).map _ = _
      rw [references, there.map_reference scheme, Faces.map_map]
      rfl
    · exact (Probe.localImage?_eq_some_iff_of_cubeMap type).mpr ⟨pattern, _, written, found, rfl⟩
  | buffer | file | remote | selfFeedback | keyboard => exact nomatch embed

/-- A cube map in the home directory, with a variable in its path. -/
theorem bound_faces_home :
    let r : PathResolver := ⟨"docs", .ofList [("HOME", "/home"), ("SKY", "dusk")]⟩
    let there : Entry := .file ⟨none, some ⟨.png, 64, 64⟩⟩
    let disk : Disk := .ofList
      [("/home/dusk-e.png", there), ("/home/dusk-w.png", there), ("/home/dusk-u.png", there),
        ("/home/dusk-d.png", there), ("/home/dusk-n.png", there), ("/home/dusk-s.png", there)]
    let b : Binder := ⟨.onDisk disk r "res:", {}, false⟩
    let t : Texture :=
      { channel := 2, type := .cubeMap, localTexture := some "~/$SKY-\x7b\x7d.png" }
    let buffers : List Buffer := [{ name := "Image", textures := [t] }]
    let faces : Faces Location :=
      ⟨.resource "res:/home/dusk-e.png", .resource "res:/home/dusk-w.png",
        .resource "res:/home/dusk-u.png", .resource "res:/home/dusk-d.png",
        .resource "res:/home/dusk-n.png", .resource "res:/home/dusk-s.png"⟩
    ((b.resolve buffers).ops 0)[0]? = some (.cubeMap 2 faces t.sampler) ∧
      ∃ (pattern : String) (names files : Faces String), hasSingleWildcard pattern ∧
        Found r disk (names.map (fill pattern)) files ∧
        faces = files.map (fun file ↦ .resource ("res:" ++ file)) := by
  intro r there disk b t buffers faces
  have bound : ((b.resolve buffers).ops 0)[0]? = some (.cubeMap 2 faces t.sampler) := by
    decide +kernel
  obtain ⟨_, _, pattern, names, files, -, -, -, -, single, -, found, references, -⟩ :=
    bound_faces bound
  exact ⟨bound, pattern, names, files, single, found, references⟩

end Binder

end ShaderChannels
