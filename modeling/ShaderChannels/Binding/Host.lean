import ShaderChannels.Disk.Entry
import ShaderChannels.Path.Anchor

/-!
# Hosts

A host lends what binding needs from outside: whether a local file exists, and a reference under
which a runtime can load it.
-/

namespace ShaderChannels

/-- What binding needs from outside. -/
structure Host where
  /-- Whether a path names an existing file. -/
  fileExists : String → Bool
  /-- What a runtime loads a path by. -/
  reference : String → String

namespace Host

/-- The scheme of references to files on disk. -/
def fileScheme : String := "file://"

/-- A host over a disk.  Paths are anchored first; one that cannot be anchored names no file and is
referred to as written. -/
def onDisk (disk : Disk) (resolver : PathResolver) (scheme : String) : Host where
  fileExists p :=
    match resolver.anchor p with
    | .ok q => (disk q).isFile
    | .error _ => false
  reference p :=
    match resolver.anchor p with
    | .ok q => scheme ++ q
    | .error _ => scheme ++ p

section

variable {disk : Disk} {resolver : PathResolver} {scheme p q : String}

theorem fileExists_onDisk_of_ok (h : resolver.anchor p = .ok q) :
    (onDisk disk resolver scheme).fileExists p = (disk q).isFile := by
  simp only [onDisk, h]

theorem reference_onDisk_of_ok (h : resolver.anchor p = .ok q) :
    (onDisk disk resolver scheme).reference p = scheme ++ q := by
  simp only [onDisk, h]

/-- A file exists only if its path can be anchored. -/
theorem fileExists_onDisk_iff :
    (onDisk disk resolver scheme).fileExists p ↔
      ∃ q, resolver.anchor p = .ok q ∧ (disk q).isFile := by
  cases anchored : resolver.anchor p with
  | ok q =>
    rw [fileExists_onDisk_of_ok anchored]
    constructor
    · intro there
      exact ⟨q, rfl, there⟩
    · rintro ⟨_, ⟨⟩, there⟩
      exact there
  | error e =>
    simp only [onDisk, anchored]
    constructor
    · intro there
      exact nomatch there
    · rintro ⟨_, ⟨⟩, _⟩

end

/-- A host over a list of paths, which are taken as written. -/
def ofFiles (files : List String) (scheme : String) : Host where
  fileExists p := files.contains p
  reference p := scheme ++ p

@[simp] theorem fileExists_ofFiles (files : List String) (scheme p : String) :
    (ofFiles files scheme).fileExists p = files.contains p := rfl

@[simp] theorem reference_ofFiles (files : List String) (scheme p : String) :
    (ofFiles files scheme).reference p = scheme ++ p := rfl

end Host

end ShaderChannels
