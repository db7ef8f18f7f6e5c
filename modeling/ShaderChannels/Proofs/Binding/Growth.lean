import ShaderChannels.Proofs.Binding.Occupancy

/-!
# More files

Files that come to exist may complete a cube map that lacked them, and may complete a convention that
is tried before the one taken so far.  Nothing else becomes of them: what was bound stays bound, and
no new error comes up.  A check may give way, though, to that of a cube map that is bound now.

* `Host.Within` — a host with more files.
* `CubeMap.FirstComplete.noLater` — with more files an earlier convention is taken, or the same.
* `Binder.Grows`, `Binder.contributes_grows` — what an input adds with fewer files and with more.
* `Binder.Supplier.of_more` — an image that supplies a binding with more files has done so before, or
  is that of a cube map in error.
* `Binder.resolve_grows` — all of this for two resolutions of the same buffers.
-/

namespace ShaderChannels

/-- `host.Within host'`: the two make the same references, and every file of the first is there for
the second. -/
structure Host.Within (host host' : Host) : Prop where
  reference_eq : host.reference = host'.reference
  fileExists : ∀ p, host.fileExists p → host'.fileExists p

/-! ## Conventions -/

namespace CubeMap

variable {host host' : Host} {p : String} {a z : List Char} {names names' : Faces String}

/-- `NoLater names' names`: the convention `names'` is `names`, or is tried before it. -/
def NoLater (names' names : Faces String) : Prop :=
  ∃ before after, conventions = before ++ names :: after ∧ (names' = names ∨ names' ∈ before)

theorem Complete.mono (h : host.Within host') (complete : Complete host a z names) :
    Complete host' a z names :=
  fun name hname ↦ h.fileExists _ (complete name hname)

/-- One of the conventions that are complete is the first. -/
theorem exists_firstComplete (h : Wildcard p a z) (named : names ∈ conventions)
    (complete : Complete host a z names) : ∃ first, FirstComplete host a z first := by
  cases found : discover host p with
  | none => exact absurd complete ((discover_eq_none_iff h).mp found names named)
  | some faces =>
    obtain ⟨first, firstComplete, -⟩ := (discover_eq_some_iff h).mp found
    exact ⟨first, firstComplete⟩

theorem FirstComplete.noLater (h : host.Within host') (first : FirstComplete host a z names)
    (first' : FirstComplete host' a z names') : NoLater names' names := by
  obtain ⟨before, after, cut, complete, -⟩ := first
  obtain ⟨before', after', cut', -, missing'⟩ := first'
  -- a convention that is complete by now is not passed over
  have passed : names ∉ before' := fun mem ↦ missing' names mem (complete.mono h)
  refine ⟨before, after, cut, ?_⟩
  rcases List.append_eq_append_iff.mp (cut.symm.trans cut') with ⟨w, rfl, split⟩ | ⟨w, rfl, split⟩
  · cases w with
    | nil => exact .inl (List.cons.inj split).1.symm
    | cons x w =>
      obtain ⟨rfl, -⟩ := List.cons.inj split
      exact absurd (List.mem_append_right _ List.mem_cons_self) passed
  · cases w with
    | nil => exact .inl (List.cons.inj split).1
    | cons x w =>
      obtain ⟨rfl, -⟩ := List.cons.inj split
      exact .inr (List.mem_append_right _ List.mem_cons_self)

end CubeMap

/-- Whether an operation makes up a cube map. -/
def Op.isCubeMap : Op → Bool
  | .cubeMap .. => true
  | .buffer .. | .file .. | .remote .. | .selfFeedback _ | .keyboard _ => false

/-- Whether a report has a message. -/
def Report.tells (r : Report) (message : String) : Bool :=
  r.batch.diagnostics.any (·.message == message)

namespace Binder

open CubeMap

variable {b : Binder} {host' : Host} {buffers : List Buffer} {buffer : Buffer} {t : Texture}
  {o o' : Op} {id : BindingId} {c c' : Contribution}

/-! ## One input -/

/-- `Keeps b host' o o'`: with the files of `host'` there is `o'` in the place of `o`, which is the
same operation, or the same cube map by an earlier convention. -/
inductive Keeps (b : Binder) (host' : Host) : Op → Op → Prop
  | other {o : Op} : o.isCubeMap = false → Keeps b host' o o
  | cubeMap {channel : Channel} {sampler : Sampler} {a z : List Char} {names names' : Faces String} :
      FirstComplete b.host a z names → FirstComplete host' a z names' → NoLater names' names →
      Keeps b host' (.cubeMap channel (names.map fun name ↦ b.locate (facePath a z name)) sampler)
        (.cubeMap channel (names'.map fun name ↦ b.locate (facePath a z name)) sampler)

theorem Keeps.channel_eq (h : Keeps b host' o o') : o'.channel? = o.channel? := by
  cases h <;> rfl

theorem Keeps.loadsImage_eq (h : Keeps b host' o o') : o'.loadsImage = o.loadsImage := by
  cases h <;> rfl

/-- `Grows b host' buffer t c c'`: the input `t` of `buffer` adds `c` to a resolution, and adds `c'`
with the files of `host'`. -/
inductive Grows (b : Binder) (host' : Host) (buffer : Buffer) (t : Texture) :
    Contribution → Contribution → Prop
  | op {o o' : Op} : Keeps b host' o o' → Grows b host' buffer t (.op o) (.op o')
  | /-- Files for a cube map that lacked them. -/
    found {a z : List Char} {names : Faces String} :
      (∀ names ∈ conventions, ¬ Complete b.host a z names) → FirstComplete host' a z names →
      Grows b host' buffer t (.error (inputError buffer t facesError))
        (.op (.cubeMap t.channel (names.map fun name ↦ b.locate (facePath a z name)) t.sampler))
  | error {r : Report} : Grows b host' buffer t (.error r) (.error r)
  | nothing : Grows b host' buffer t .nothing .nothing

/-- Files have no part in where an image is loaded from. -/
theorem locate_eq (h : b.host.Within host') : { b with host := host' }.locate = b.locate := by
  funext p
  rw [locate, locate, h.reference_eq]

theorem contributes_grows (h : b.host.Within host') (one : Contributes b buffer t c)
    (more : Contributes { b with host := host' } buffer t c') : Grows b host' buffer t c c' := by
  have same := locate_eq h
  cases one with
  | cubeMap type path wild first =>
    obtain ⟨names', first'⟩ := exists_firstComplete wild first.mem (first.complete.mono h)
    rw [more.unique (.cubeMap type path wild first'), same]
    exact .op (.cubeMap first first' (first.noLater h first'))
  | pattern type none =>
    rw [more.unique (.pattern type none)]
    exact .error
  | @faces p a z type path wild missing =>
    by_cases lacking : ∀ names ∈ conventions, ¬ Complete host' a z names
    · rw [more.unique (.faces type path wild lacking)]
      exact .error
    · simp only [not_forall, not_not] at lacking
      obtain ⟨names, named, complete⟩ := lacking
      obtain ⟨names', first'⟩ := exists_firstComplete wild named complete
      rw [more.unique (.cubeMap type path wild first'), same]
      exact .found missing first'
  | buffer type index =>
    rw [more.unique (.buffer type index)]
    exact .op (.other rfl)
  | file type index mag min wrap path =>
    rw [more.unique (.file type index mag min wrap path), same]
    exact .op (.other rfl)
  | remote type index mag min wrap path url =>
    rw [more.unique (.remote type index mag min wrap path url)]
    exact .op (.other rfl)
  | incomplete type index lacking =>
    rw [more.unique (.incomplete type index lacking)]
    exact .nothing

/-- An input that is bound stays bound. -/
theorem exists_keeps (h : b.host.Within host') (one : Contributes b buffer t (.op o)) :
    ∃ o', Contributes { b with host := host' } buffer t (.op o') ∧ Keeps b host' o o' := by
  obtain ⟨c', more, -⟩ := existsUnique_contributes { b with host := host' } buffer t
  cases contributes_grows h one more with
  | op keeps => exact ⟨_, more, keeps⟩

/-- The operations that are no cube maps stay as they are. -/
theorem Grows.filter_op? (h : Grows b host' buffer t c c') :
    c'.op?.filter (!·.isCubeMap) = c.op?.filter (!·.isCubeMap) := by
  cases h with
  | op keeps => cases keeps <;> rfl
  | found | error | nothing => rfl

/-- The error about an input has one message. -/
theorem tells_inputError (m m' : String) : (inputError buffer t m).tells m' = (m == m') := by
  simp [inputError, Report.tells]

/-- What is no longer an error lacked files, and did not lack a wildcard. -/
theorem Grows.filter_report? (h : Grows b host' buffer t c c') :
    c'.report?.filter (·.tells patternError) = c.report?.filter (·.tells patternError) := by
  cases h with
  | found =>
    rw [Contribution.report?, Contribution.report?, Option.filter_some, tells_inputError]
    rfl
  | op | error | nothing => rfl

/-! ## All inputs -/

/-- `GrowAll b host' cs cs'`: input by input, `cs'` are added with the files of `host'` where `cs` are
added without. -/
def GrowAll (b : Binder) (host' : Host) : List Contribution → List Contribution → Prop :=
  List.Forall₂ fun c c' ↦ ∃ buffer t, Grows b host' buffer t c c'

theorem growAll_contributions (h : b.host.Within host') (buffer : Buffer) :
    GrowAll b host' (b.contributions buffer) ({ b with host := host' }.contributions buffer) := by
  rw [contributions, contributions, outcomes, outcomes, List.map_map, List.map_map, GrowAll,
    List.forall₂_map_left_iff, List.forall₂_map_right_iff, List.forall₂_same]
  intro t _
  exact ⟨buffer, t, contributes_grows h ((contributes_iff 0).mpr rfl) ((contributes_iff 0).mpr rfl)⟩

namespace GrowAll

variable {cs cs' : List Contribution}

/-- What is read off each input and does not change there does not change in all. -/
theorem filterMap_eq {α : Type} {f : Contribution → Option α} (h : GrowAll b host' cs cs')
    (step : ∀ buffer t c c', Grows b host' buffer t c c' → f c' = f c) :
    cs'.filterMap f = cs.filterMap f := by
  induction h with
  | nil => rfl
  | cons one _ ih =>
    obtain ⟨buffer, t, grows⟩ := one
    rw [List.filterMap_cons, List.filterMap_cons, step buffer t _ _ grows, ih]

theorem ops (h : GrowAll b host' cs cs') :
    List.SublistForall₂ (Keeps b host') (cs.filterMap Contribution.op?)
      (cs'.filterMap Contribution.op?) := by
  induction h with
  | nil => exact .nil
  | cons one _ ih =>
    obtain ⟨buffer, t, grows⟩ := one
    cases grows with
    | op keeps => exact .cons keeps ih
    | found => exact .cons_right ih
    | error | nothing => exact ih

theorem reports (h : GrowAll b host' cs cs') :
    (cs'.filterMap Contribution.report?).Sublist (cs.filterMap Contribution.report?) := by
  induction h with
  | nil => exact .slnil
  | cons one _ ih =>
    obtain ⟨buffer, t, grows⟩ := one
    cases grows with
    | found => exact ih.cons _
    | error => exact ih.cons_cons _
    | op | nothing => exact ih

end GrowAll

/-! ## Resolutions -/

theorem keeps_of_mem_ownOps (h : o ∈ b.ownOps buffer) : Keeps b host' o o := by
  refine .other ?_
  have loads := loadsImage_of_mem_ownOps h
  cases o with
  | cubeMap => exact nomatch loads
  | buffer | file | remote | selfFeedback | keyboard => rfl

/-- The operations of a buffer are kept in order, and those that come to them are cube maps. -/
theorem ops_grow (h : b.host.Within host') (buffers : List Buffer) (i : Nat) :
    List.SublistForall₂ (Keeps b host') ((b.resolve buffers).ops i)
        (({ b with host := host' }.resolve buffers).ops i) ∧
      (({ b with host := host' }.resolve buffers).ops i).filter (!·.isCubeMap) =
        ((b.resolve buffers).ops i).filter (!·.isCubeMap) := by
  cases hb : buffers[i]? with
  | none => simp [Resolution.ops, getElem?_buffers_resolve, hb, List.SublistForall₂.nil]
  | some buffer =>
    have grow := growAll_contributions h buffer
    have own : List.Forall₂ (Keeps b host') (b.ownOps buffer) (b.ownOps buffer) :=
      List.forall₂_same.mpr fun o ho ↦ keeps_of_mem_ownOps ho
    rw [ops_resolve hb, ops_resolve hb]
    constructor
    · obtain ⟨kept, keeps, sub⟩ := List.sublistForall₂_iff.mp grow.ops
      exact List.sublistForall₂_iff.mpr
        ⟨kept ++ b.ownOps buffer, List.rel_append keeps own, sub.append_right _⟩
    · rw [List.filter_append, List.filter_append, List.filter_filterMap, List.filter_filterMap,
        grow.filterMap_eq fun _ _ _ _ ↦ Grows.filter_op?]
      rfl

/-- Each operation is kept by one of the same buffer. -/
theorem exists_mem_ops_of_mem {i : Nat} (h : b.host.Within host')
    (ho : o ∈ (b.resolve buffers).ops i) :
    ∃ o' ∈ ({ b with host := host' }.resolve buffers).ops i, Keeps b host' o o' := by
  obtain ⟨buffer, hb, ⟨t, ht, one⟩ | own⟩ := mem_ops_resolve_iff.mp ho
  · obtain ⟨o', more, keeps⟩ := exists_keeps h one
    exact ⟨o', mem_ops_resolve_iff.mpr ⟨buffer, hb, .inl ⟨t, ht, more⟩⟩, keeps⟩
  · exact ⟨o, mem_ops_resolve_iff.mpr ⟨buffer, hb, .inr own⟩, keeps_of_mem_ownOps own⟩

/-- With more files the errors are some of those before, and all of those about wildcards. -/
theorem reports_grow (h : b.host.Within host') (buffers : List Buffer) :
    ({ b with host := host' }.resolve buffers).reports.Sublist (b.resolve buffers).reports ∧
      ({ b with host := host' }.resolve buffers).reports.filter (·.tells patternError) =
        (b.resolve buffers).reports.filter (·.tells patternError) := by
  have grow : GrowAll b host' (buffers.map b.contributions).flatten
      (buffers.map { b with host := host' }.contributions).flatten := by
    refine List.rel_flatten ?_
    rw [List.forall₂_map_left_iff, List.forall₂_map_right_iff, List.forall₂_same]
    exact fun buffer _ ↦ growAll_contributions h buffer
  rw [reports_resolve, reports_resolve]
  refine ⟨grow.reports, ?_⟩
  rw [List.filter_filterMap, List.filter_filterMap]
  exact grow.filterMap_eq fun _ _ _ _ ↦ Grows.filter_report?

/-! ## Checks -/

/-- The image of an input is loaded with more files too. -/
theorem Loads.exists_more (h : b.host.Within host') (loads : Loads b buffer t o) :
    ∃ o', Loads { b with host := host' } buffer t o' := by
  obtain ⟨o', more, keeps⟩ := exists_keeps h loads.1
  exact ⟨o', more, keeps.loadsImage_eq.trans loads.2⟩

/-- What loads an image with more files does so before, or lacks files. -/
theorem Loads.of_more (h : b.host.Within host') (loads : Loads { b with host := host' } buffer t o') :
    (∃ o, Loads b buffer t o) ∨ Contributes b buffer t (.error (inputError buffer t facesError)) := by
  obtain ⟨c, one, -⟩ := existsUnique_contributes b buffer t
  cases contributes_grows h one loads.1 with
  | op keeps => exact .inl ⟨_, one, keeps.loadsImage_eq.symm.trans loads.2⟩
  | found => exact .inr one

/-- The input that supplies a binding with more files supplies it before, or lacks files. -/
theorem Supplier.of_more {after : List Texture} (h : b.host.Within host')
    (supplier : Supplier { b with host := host' } buffers id buffer t o' after) :
    (∃ o, Supplier b buffers id buffer t o after) ∨
      Contributes b buffer t (.error (inputError buffer t facesError)) := by
  refine (supplier.loads.of_more h).imp_left ?_
  rintro ⟨o, loads⟩
  refine ⟨o, supplier.buffer_eq, supplier.declared, loads, fun u hu p later ↦ ?_⟩
  obtain ⟨p', later'⟩ := later.exists_more h
  exact supplier.last u hu p' later'

/-- A check still waits for each binding, and it is the same one unless a cube map is bound there that
lacked files. -/
theorem checks_grow (h : b.host.Within host') {d : Check}
    (waits : (b.resolve buffers).checks.get? id = some d) :
    ∃ d', ({ b with host := host' }.resolve buffers).checks.get? id = some d' ∧
      (d' = d ∨ ∃ buffer t o, LastLoad { b with host := host' } buffers id buffer t o ∧
        Contributes b buffer t (.error (inputError buffer t facesError))) := by
  obtain ⟨buffer₀, t₀, o₀, after₀, supplier₀, rfl⟩ := get?_checks_eq_some_iff.mp waits
  obtain ⟨d', waits'⟩ : ∃ d', ({ b with host := host' }.resolve buffers).checks.get? id = some d' := by
    rw [← Checks.mem_ids_iff, mem_ids_checks_iff]
    obtain ⟨o, ho, loads, channel⟩ :=
      mem_ids_checks_iff.mp (Checks.mem_ids_iff.mpr ⟨_, waits⟩)
    obtain ⟨o', ho', keeps⟩ := exists_mem_ops_of_mem h ho
    exact ⟨o', ho', keeps.loadsImage_eq.trans loads, keeps.channel_eq.trans channel⟩
  obtain ⟨buffer, t, o', after, supplier, rfl⟩ := get?_checks_eq_some_iff.mp waits'
  refine ⟨_, waits', ?_⟩
  rcases supplier.of_more h with ⟨o, supplier₁⟩ | lacking
  · obtain ⟨rfl, rfl, -⟩ := supplier₀.unique supplier₁
    exact .inl rfl
  · exact .inr ⟨buffer, t, o', exists_supplier_iff_lastLoad.mp ⟨after, supplier⟩, lacking⟩

/-- **More files break nothing.**  Let more files be there than before, by the same references.  Each
input that was bound is bound by the same operation, or by the same cube map with an earlier
convention for its names.  So the operations of a buffer are kept in order, and those that come to
them are cube maps.  The errors are some of those before, in order, and those about wildcards are all
of them.  For each binding that a check waited for a check still waits; it is the same check unless
the binding is supplied by a cube map that was in error for its files. -/
theorem resolve_grows (b : Binder) {host' : Host} (h : b.host.Within host')
    (buffers : List Buffer) :
    let b' : Binder := { b with host := host' }
    let r := b.resolve buffers
    let r' := b'.resolve buffers
    (∀ buffer t o, Contributes b buffer t (.op o) →
      ∃ o', Contributes b' buffer t (.op o') ∧ Keeps b host' o o') ∧
    (∀ i, List.SublistForall₂ (Keeps b host') (r.ops i) (r'.ops i) ∧
      (r'.ops i).filter (!·.isCubeMap) = (r.ops i).filter (!·.isCubeMap)) ∧
    r'.reports.Sublist r.reports ∧
    r'.reports.filter (·.tells patternError) = r.reports.filter (·.tells patternError) ∧
    ∀ id d, r.checks.get? id = some d → ∃ d', r'.checks.get? id = some d' ∧
      (d' = d ∨ ∃ buffer t o, LastLoad b' buffers id buffer t o ∧
        Contributes b buffer t (.error (inputError buffer t facesError))) := by
  obtain ⟨reports, patterns⟩ := reports_grow h buffers
  exact ⟨fun buffer t o one ↦ exists_keeps h one, ops_grow h buffers, reports, patterns,
    fun id d waits ↦ checks_grow h waits⟩

/-- The files of a first convention for one cube map, and files for another one on the channel of a
local image.  The first cube map is bound by other paths, the error about the second one goes, and
the check of the image gives way. -/
theorem resolve_grows_rebound :
    let files := ["c_px", "c_nx", "c_py", "c_ny", "c_pz", "c_nz"]
    let more := ["c_e", "c_w", "c_u", "c_d", "c_n", "c_s", "de", "dw", "du", "dd", "dn", "ds"]
    let b : Binder := { host := .ofFiles files "res://" }
    let b' : Binder := { host := .ofFiles (files ++ more) "res://" }
    let cube (channel : Channel) (pattern : String) : Texture :=
      { channel, type := .cubeMap, localTexture := some pattern, typeLine := some 9 }
    let image : Texture :=
      { channel := 1, localTexture := some "a.png", mag := some .nearest, min := some .linear,
        wrap := some .mirror, magLine := some 2 }
    let buffer : Buffer :=
      { name := "Image", textures :=
          [cube 0 "c_\x7b\x7d", image, cube 1 "d\x7b\x7d", cube 2 "sky.png"] }
    b.host.Within b'.host ∧
      List.SublistForall₂ (Keeps b b'.host) ((b.resolve [buffer]).ops 0)
        ((b'.resolve [buffer]).ops 0) ∧
      (b.resolve [buffer]).reports =
        [inputError buffer (cube 1 "d\x7b\x7d") facesError,
          inputError buffer (cube 2 "sky.png") patternError] ∧
      (b'.resolve [buffer]).reports.filter (·.tells patternError) =
        [inputError buffer (cube 2 "sky.png") patternError] ∧
      (b.resolve [buffer]).checks.get? ⟨0, 1⟩ = some ⟨⟨0, 1⟩, "", [2]⟩ ∧
      ∃ d', (b'.resolve [buffer]).checks.get? ⟨0, 1⟩ = some d' ∧ d'.lines = [9] := by
  intro files more b b' cube image buffer
  have within : b.host.Within b'.host := by
    refine ⟨rfl, fun p there ↦ ?_⟩
    rw [Host.fileExists_ofFiles, List.contains_iff_mem] at there ⊢
    exact List.mem_append_left _ there
  obtain ⟨-, ops, -, patterns, checks⟩ := resolve_grows b within [buffer]
  have before : (b.resolve [buffer]).checks.get? ⟨0, 1⟩ = some ⟨⟨0, 1⟩, "", [2]⟩ := by
    decide +kernel
  refine ⟨within, (ops 0).1, by decide +kernel, ?_, before, ?_⟩
  · rw [patterns]
    decide +kernel
  · obtain ⟨d', waits, -⟩ := checks ⟨0, 1⟩ _ before
    have after : (b'.resolve [buffer]).checks.get? ⟨0, 1⟩ = some ⟨⟨0, 1⟩, "", [9]⟩ := by
      decide +kernel
    obtain rfl := Option.some.inj (waits.symm.trans after)
    exact ⟨_, waits, rfl⟩

end Binder

end ShaderChannels
