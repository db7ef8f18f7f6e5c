import Mathlib.Data.List.Forall2
import ShaderChannels.Binding.Resolve
import ShaderChannels.Proofs.Binding.Wildcard

/-!
# Contributions of inputs

Every texture input is accounted for in a resolution: it adds one operation, or one error, or it is
incomplete and adds nothing.  `Contributes` lists the cases by the fields of the input alone, and
there is exactly one case for each input (`existsUnique_contributes`).  A resolution is then put
together from the contributions of all inputs (`resolve_accounts`).

The cases do not depend on the position of the buffer, so neither does what an input contributes,
although the check that an image leaves does.
-/

namespace ShaderChannels

/-- What a texture input adds to a resolution. -/
inductive Contribution where
  | op (op : Op)
  | error (report : Report)
  | nothing
deriving DecidableEq

namespace Contribution

/-- The operation added. -/
def op? : Contribution → Option Op
  | .op o => some o
  | .error _ | .nothing => none

/-- The error added. -/
def report? : Contribution → Option Report
  | .error r => some r
  | .op _ | .nothing => none

/-- What an outcome adds, its check aside. -/
def ofOutcome : Outcome → Contribution
  | .loads o _ | .binds o => .op o
  | .rejected r => .error r
  | .dropped => .nothing

@[simp] theorem op?_ofOutcome (o : Outcome) : (ofOutcome o).op? = o.op? := by cases o <;> rfl

@[simp] theorem report?_ofOutcome (o : Outcome) : (ofOutcome o).report? = o.report? := by
  cases o <;> rfl

end Contribution

namespace Texture

variable {t : Texture}

/-! ## Sources -/

theorem source_of_cubeMap (h : t.type = .cubeMap) : t.source = .cubeMap t.localTexture := by
  rw [source, h]

theorem source_of_bufferIndex {i : Nat} (h : t.type = .plain) (hi : t.bufferIndex = some i) :
    t.source = .buffer i := by
  rw [source, h, hi]

/-- All settings are given. -/
theorem hasSettings_iff :
    t.hasSettings ↔ t.mag.isSome ∧ t.min.isSome ∧ t.wrap.isSome := by
  rw [hasSettings, Bool.and_eq_true, Bool.and_eq_true, and_assoc]

/-- Some setting is not given. -/
theorem not_hasSettings_iff :
    ¬ t.hasSettings ↔ t.mag = none ∨ t.min = none ∨ t.wrap = none := by
  rw [hasSettings_iff, not_and_or, not_and_or]
  simp only [Option.not_isSome_iff_eq_none]

theorem source_of_localTexture {p : String} (h : t.type = .plain) (hi : t.bufferIndex = none)
    (mag : t.mag.isSome) (min : t.min.isSome) (wrap : t.wrap.isSome)
    (hp : t.localTexture = some p) : t.source = .localFile p := by
  have settings := hasSettings_iff.mpr ⟨mag, min, wrap⟩
  simp only [source, h, hi, settings, hp, if_true]

theorem source_of_remoteTexture {u : String} (h : t.type = .plain) (hi : t.bufferIndex = none)
    (mag : t.mag.isSome) (min : t.min.isSome) (wrap : t.wrap.isSome)
    (hp : t.localTexture = none) (hu : t.remoteTexture = some u) : t.source = .remoteUrl u := by
  have settings := hasSettings_iff.mpr ⟨mag, min, wrap⟩
  simp only [source, h, hi, settings, hp, hu, if_true]

/-- An input without a setting, or without an image, is incomplete. -/
theorem source_of_lacking (h : t.type = .plain) (hi : t.bufferIndex = none)
    (lacking : t.mag = none ∨ t.min = none ∨ t.wrap = none ∨
      t.localTexture = none ∧ t.remoteTexture = none) :
    t.source = .incomplete := by
  have cases : ¬ t.hasSettings ∨ t.localTexture = none ∧ t.remoteTexture = none := by
    rwa [not_hasSettings_iff, or_assoc, or_assoc]
  rcases cases with settings | ⟨hp, hu⟩
  · simp only [source, h, hi, settings, Bool.false_eq_true, if_false]
  · simp only [source, h, hi, hp, hu, ite_self]

end Texture

namespace Binder

open CubeMap

/-! ## Cases -/

/-- The error about an input, filed under its own file or else under that of its buffer, at the line
of its type or else at the first one. -/
def inputError (buffer : Buffer) (t : Texture) (message : String) : Report :=
  ⟨.error, ⟨t.file.getD buffer.file, [⟨t.typeLine.getD 0, message⟩]⟩⟩

/-- `Contributes b buffer t c`: the input `t` of `buffer` adds `c` to a resolution. -/
inductive Contributes (b : Binder) (buffer : Buffer) (t : Texture) : Contribution → Prop
  | /-- A cube map with one wildcard, and six files for it. -/
    cubeMap {p : String} {a z : List Char} {names : Faces String} :
      t.type = .cubeMap → t.localTexture = some p → Wildcard p a z →
      FirstComplete b.host a z names →
      Contributes b buffer t (.op (.cubeMap t.channel
        (names.map fun name ↦ b.locate (facePath a z name)) t.sampler))
  | /-- A cube map without a local path that has one wildcard. -/
    pattern :
      t.type = .cubeMap → (∀ p, t.localTexture = some p → ¬ ∃ a z, Wildcard p a z) →
      Contributes b buffer t (.error (inputError buffer t patternError))
  | /-- A cube map with one wildcard, for which every convention lacks a file. -/
    faces {p : String} {a z : List Char} :
      t.type = .cubeMap → t.localTexture = some p → Wildcard p a z →
      (∀ names ∈ conventions, ¬ Complete b.host a z names) →
      Contributes b buffer t (.error (inputError buffer t facesError))
  | /-- A reference to a buffer, whatever else is given. -/
    buffer {source : Nat} :
      t.type = .plain → t.bufferIndex = some source →
      Contributes b buffer t (.op (.buffer t.channel source))
  | /-- A local image with all settings. -/
    file {p : String} :
      t.type = .plain → t.bufferIndex = none →
      t.mag.isSome → t.min.isSome → t.wrap.isSome → t.localTexture = some p →
      Contributes b buffer t (.op (.file t.channel (b.locate p) t.sampler))
  | /-- A remote image with all settings, where no local one is given. -/
    remote {u : String} :
      t.type = .plain → t.bufferIndex = none →
      t.mag.isSome → t.min.isSome → t.wrap.isSome → t.localTexture = none →
      t.remoteTexture = some u →
      Contributes b buffer t (.op (.remote t.channel u t.sampler))
  | /-- No source, or an image without all settings. -/
    incomplete :
      t.type = .plain → t.bufferIndex = none →
      t.mag = none ∨ t.min = none ∨ t.wrap = none ∨ t.localTexture = none ∧ t.remoteTexture = none →
      Contributes b buffer t .nothing

variable {b : Binder} {buffer : Buffer} {t : Texture} {c : Contribution}

/-- What an input contributes is what its outcome adds. -/
theorem Contributes.eq_ofOutcome (h : Contributes b buffer t c) (i : Nat) :
    c = .ofOutcome (b.outcome i buffer t) := by
  cases h with
  | @cubeMap p a z names type path wild first =>
    have single : hasSingleWildcard p := (hasSingleWildcard_iff p).mpr ⟨a, z, wild⟩
    have found := (discover_eq_some_iff wild).mpr ⟨names, first, rfl⟩
    simp only [outcome, Texture.source_of_cubeMap type, path, Option.filter_some, single, if_true,
      found]
    rfl
  | pattern type none =>
    have unfit : t.localTexture.filter hasSingleWildcard = Option.none := by
      rw [Option.filter_eq_none_iff]
      exact fun p hp single ↦ none p hp ((hasSingleWildcard_iff p).mp single)
    simp only [outcome, Texture.source_of_cubeMap type, unfit]
    rfl
  | @faces p a z type path wild missing =>
    have single : hasSingleWildcard p := (hasSingleWildcard_iff p).mpr ⟨a, z, wild⟩
    have none := (discover_eq_none_iff wild).mpr missing
    simp only [outcome, Texture.source_of_cubeMap type, path, Option.filter_some, single, if_true,
      none]
    rfl
  | buffer type index =>
    simp only [outcome, Texture.source_of_bufferIndex type index]
    rfl
  | file type index mag min wrap path =>
    simp only [outcome, Texture.source_of_localTexture type index mag min wrap path]
    rfl
  | remote type index mag min wrap path url =>
    simp only [outcome, Texture.source_of_remoteTexture type index mag min wrap path url]
    rfl
  | incomplete type index lacking =>
    simp only [outcome, Texture.source_of_lacking type index lacking]
    rfl

/-- Some case applies to every cube map. -/
theorem exists_contributes_of_cubeMap (b : Binder) (buffer : Buffer) (h : t.type = .cubeMap) :
    ∃ c, Contributes b buffer t c := by
  by_cases wild : ∃ p a z, t.localTexture = some p ∧ Wildcard p a z
  · obtain ⟨p, a, z, path, wild⟩ := wild
    cases found : discover b.host p with
    | none => exact ⟨_, .faces h path wild ((discover_eq_none_iff wild).mp found)⟩
    | some faces =>
      obtain ⟨names, first, -⟩ := (discover_eq_some_iff wild).mp found
      exact ⟨_, .cubeMap h path wild first⟩
  · refine ⟨_, .pattern h ?_⟩
    rintro p path ⟨a, z, hp⟩
    exact wild ⟨p, a, z, path, hp⟩

/-- Some case applies to every plain input. -/
theorem exists_contributes_of_plain (b : Binder) (buffer : Buffer) (h : t.type = .plain) :
    ∃ c, Contributes b buffer t c := by
  cases index : t.bufferIndex with
  | some source => exact ⟨_, .buffer h index⟩
  | none =>
    by_cases settings : t.hasSettings
    · obtain ⟨mag, min, wrap⟩ := Texture.hasSettings_iff.mp settings
      cases path : t.localTexture with
      | some p => exact ⟨_, .file h index mag min wrap path⟩
      | none =>
        cases url : t.remoteTexture with
        | some u => exact ⟨_, .remote h index mag min wrap path url⟩
        | none => exact ⟨_, .incomplete h index (.inr (.inr (.inr ⟨path, url⟩)))⟩
    · rcases Texture.not_hasSettings_iff.mp settings with mag | min | wrap
      · exact ⟨_, .incomplete h index (.inl mag)⟩
      · exact ⟨_, .incomplete h index (.inr (.inl min))⟩
      · exact ⟨_, .incomplete h index (.inr (.inr (.inl wrap)))⟩

/-- The outcome of an input adds what the input contributes, and nothing else is contributed. -/
theorem contributes_iff (i : Nat) :
    Contributes b buffer t c ↔ c = .ofOutcome (b.outcome i buffer t) := by
  constructor
  · exact fun h ↦ h.eq_ofOutcome i
  · rintro rfl
    obtain ⟨c, hc⟩ : ∃ c, Contributes b buffer t c := by
      cases h : t.type with
      | cubeMap => exact exists_contributes_of_cubeMap b buffer h
      | plain => exact exists_contributes_of_plain b buffer h
    rwa [← hc.eq_ofOutcome i]

/-- Exactly one case applies to an input. -/
theorem existsUnique_contributes (b : Binder) (buffer : Buffer) (t : Texture) :
    ∃! c, Contributes b buffer t c := by
  refine ⟨.ofOutcome (b.outcome 0 buffer t), (contributes_iff 0).mpr rfl, ?_⟩
  exact fun c hc ↦ hc.eq_ofOutcome 0

/-- An input is in error exactly if it is a cube map, and no wildcard of its own leaves room for six
existing files. -/
theorem contributes_error_iff :
    (∃ r, Contributes b buffer t (.error r)) ↔
      t.type = .cubeMap ∧ ∀ p a z, t.localTexture = some p → Wildcard p a z →
        ∀ names ∈ conventions, ¬ Complete b.host a z names := by
  constructor
  · rintro ⟨r, h⟩
    cases h with
    | pattern type none =>
      exact ⟨type, fun p a z path wild ↦ absurd ⟨a, z, wild⟩ (none p path)⟩
    | @faces p a z type path wild missing =>
      refine ⟨type, fun p' a' z' path' wild' ↦ ?_⟩
      obtain rfl : p = p' := Option.some.inj (path.symm.trans path')
      obtain ⟨rfl, rfl⟩ := wild.cut_unique wild'
      exact missing
  · rintro ⟨type, missing⟩
    by_cases wild : ∃ p a z, t.localTexture = some p ∧ Wildcard p a z
    · obtain ⟨p, a, z, path, wild⟩ := wild
      exact ⟨_, .faces type path wild (missing p a z path wild)⟩
    · refine ⟨_, .pattern type ?_⟩
      rintro p path ⟨a, z, hp⟩
      exact wild ⟨p, a, z, path, hp⟩

/-- An input adds nothing exactly if it is plain, refers to no buffer, and lacks a setting or an
image. -/
theorem contributes_nothing_iff :
    Contributes b buffer t .nothing ↔
      t.type = .plain ∧ t.bufferIndex = none ∧
        (t.mag = none ∨ t.min = none ∨ t.wrap = none ∨
          t.localTexture = none ∧ t.remoteTexture = none) := by
  constructor
  · rintro (_ | _ | _ | _ | _ | _ | ⟨type, index, lacking⟩)
    exact ⟨type, index, lacking⟩
  · rintro ⟨type, index, lacking⟩
    exact .incomplete type index lacking

/-- An operation fills the channel of its input. -/
theorem Contributes.channel_eq {o : Op} (h : Contributes b buffer t (.op o)) :
    o.channel? = some t.channel := by
  cases h <;> rfl

/-! ## Resolutions -/

/-- The operations of a buffer whose inputs add `parts`: theirs, then the previous frame, then the
keyboard. -/
def opsOf (b : Binder) (buffer : Buffer) (parts : List Contribution) : List Op :=
  parts.filterMap Contribution.op? ++
    (if buffer.usesSelf then [.selfFeedback buffer.selfChannel] else []) ++
    (if buffer.usesKeyboard then [.keyboard b.keyboard] else [])

/-- What the inputs of a buffer add. -/
def contributions (b : Binder) (buffer : Buffer) : List Contribution :=
  (b.outcomes 0 buffer).map .ofOutcome

/-- What the inputs of a buffer add does not depend on the position of the buffer. -/
theorem contributions_eq (b : Binder) (i : Nat) (buffer : Buffer) :
    b.contributions buffer = (b.outcomes i buffer).map .ofOutcome := by
  rw [contributions, outcomes, outcomes, List.map_map, List.map_map]
  refine List.map_congr_left fun t _ ↦ ?_
  exact ((contributes_iff 0).mpr rfl).eq_ofOutcome i

theorem forall₂_contributions (b : Binder) (buffer : Buffer) :
    List.Forall₂ (Contributes b buffer) buffer.textures (b.contributions buffer) := by
  rw [contributions, outcomes, List.map_map, List.forall₂_map_right_iff, List.forall₂_same]
  exact fun t _ ↦ (contributes_iff 0).mpr rfl

/-- The operations of a buffer are put together from what its inputs add. -/
theorem resolveBuffer_eq (b : Binder) (i : Nat) (buffer : Buffer) :
    b.resolveBuffer i buffer = ⟨i, b.opsOf buffer (b.contributions buffer)⟩ := by
  rw [opsOf, contributions_eq b i, List.filterMap_map]
  simp only [Function.comp_def, Contribution.op?_ofOutcome]
  rfl

/-- The entry of a buffer stands at its position. -/
theorem getElem?_buffers_resolve (b : Binder) (buffers : List Buffer) (i : Nat) :
    (b.resolve buffers).buffers[i]? = buffers[i]?.map (b.resolveBuffer i) := by
  rw [resolve, List.getElem?_map, List.getElem?_zipIdx, Option.map_map, Nat.zero_add]
  rfl

/-- The outcomes of all inputs, in order across all buffers. -/
def allOutcomes (b : Binder) (buffers : List Buffer) : List Outcome :=
  buffers.zipIdx.flatMap fun p ↦ b.outcomes p.2 p.1

/-- The errors of a resolution are those of its outcomes. -/
theorem reports_eq (b : Binder) (buffers : List Buffer) :
    (b.resolve buffers).reports = (b.allOutcomes buffers).filterMap Outcome.report? := rfl

/-- The checks of a resolution are those of its outcomes, registered in order. -/
theorem checks_eq (b : Binder) (buffers : List Buffer) :
    (b.resolve buffers).checks =
      ((b.allOutcomes buffers).filterMap Outcome.check?).foldl Checks.register Checks.empty := rfl

/-- The errors of a resolution are those that its inputs add, in order. -/
theorem reports_resolve (b : Binder) (buffers : List Buffer) :
    (b.resolve buffers).reports =
      (buffers.map b.contributions).flatten.filterMap Contribution.report? := by
  have parts : (b.allOutcomes buffers).map .ofOutcome = (buffers.map b.contributions).flatten := by
    rw [allOutcomes, List.map_flatMap]
    simp only [← contributions_eq]
    rw [← List.flatMap_map Prod.fst b.contributions, List.zipIdx_map_fst, List.flatMap]
  rw [← parts, List.filterMap_map, reports_eq]
  simp only [Function.comp_def, Contribution.report?_ofOutcome]

/-- The operations of a resolution are those that its inputs add, buffer by buffer. -/
theorem buffers_resolve (b : Binder) (buffers : List Buffer) :
    (b.resolve buffers).buffers =
      (buffers.zip (buffers.map b.contributions)).mapIdx fun i p ↦ ⟨i, b.opsOf p.1 p.2⟩ := by
  have pairs : buffers.zip (buffers.map b.contributions) =
      buffers.map fun buffer ↦ (buffer, b.contributions buffer) := by
    simpa using List.zip_map' (f := id) (g := b.contributions) (l := buffers)
  rw [pairs, List.mapIdx_eq_zipIdx_map, List.zipIdx_map, List.map_map]
  simp only [resolve, resolveBuffer_eq]
  rfl

/-- **Every input is accounted for.**  Exactly one case applies to each input; it is an error if it
is a cube map without one wildcard or without six files, and it is passed over if it is plain and
incomplete.  A resolution has one entry for each buffer, numbered by its position, with one
operation for each input that has one, in order, on the channel of that input, then the previous
frame and the keyboard if they are read.  The errors are those of the inputs, in order across all
buffers. -/
theorem resolve_accounts (b : Binder) (buffers : List Buffer) :
    (∀ buffer t, ∃! c, Contributes b buffer t c) ∧
      (∀ buffer t, (∃ r, Contributes b buffer t (.error r)) ↔
        t.type = .cubeMap ∧ ∀ p a z, t.localTexture = some p → Wildcard p a z →
          ∀ names ∈ conventions, ¬ Complete b.host a z names) ∧
      (∀ buffer t, Contributes b buffer t .nothing ↔
        t.type = .plain ∧ t.bufferIndex = none ∧
          (t.mag = none ∨ t.min = none ∨ t.wrap = none ∨
            t.localTexture = none ∧ t.remoteTexture = none)) ∧
      (∀ buffer t o, Contributes b buffer t (.op o) → o.channel? = some t.channel) ∧
      ∃ parts : List (List Contribution),
        List.Forall₂ (fun buffer cs ↦ List.Forall₂ (Contributes b buffer) buffer.textures cs)
          buffers parts ∧
        (b.resolve buffers).buffers =
          (buffers.zip parts).mapIdx (fun i p ↦ ⟨i, b.opsOf p.1 p.2⟩) ∧
        (b.resolve buffers).reports = parts.flatten.filterMap Contribution.report? := by
  refine ⟨existsUnique_contributes b, fun _ _ ↦ contributes_error_iff,
    fun _ _ ↦ contributes_nothing_iff, fun _ _ _ h ↦ h.channel_eq,
    buffers.map b.contributions, ?_, buffers_resolve b buffers, reports_resolve b buffers⟩
  rw [List.forall₂_map_right_iff, List.forall₂_same]
  exact fun buffer _ ↦ forall₂_contributions b buffer

/-- A remote image with all settings is bound to the channel of its input, in the one buffer there
is. -/
theorem resolve_accounts_remote :
    let b : Binder := { host := .ofFiles [] "res://" }
    let t : Texture :=
      { channel := 2, remoteTexture := some "noise.png", mag := some .nearest,
        min := some .unrecognized, wrap := some .mirror }
    let a : Buffer := { name := "A", textures := [t] }
    let o : Op := .remote 2 "noise.png" ⟨.nearest, .linear, .mirroredRepeat⟩
    Contributes b a t (.op o) ∧ o.channel? = some t.channel ∧
      (b.resolve [a]).buffers = [⟨0, [o]⟩] ∧ (b.resolve [a]).reports = [] := by
  intro b t a o
  have bound : Contributes b a t (.op o) := .remote rfl rfl rfl rfl rfl rfl rfl
  obtain ⟨unique, -, -, channel, parts, each, buffers, reports⟩ := resolve_accounts b [a]
  obtain ⟨cs, rfl⟩ : ∃ cs, parts = [cs] := List.length_eq_one_iff.mp each.length_eq.symm
  have own : List.Forall₂ (Contributes b a) [t] cs := (List.forall₂_cons.mp each).1
  obtain ⟨c, rfl⟩ : ∃ c, cs = [c] := List.length_eq_one_iff.mp own.length_eq.symm
  have same : c = .op o := (unique a t).unique (List.forall₂_cons.mp own).1 bound
  rw [same] at buffers reports
  exact ⟨bound, channel _ _ _ bound, buffers, reports⟩

end Binder

end ShaderChannels
