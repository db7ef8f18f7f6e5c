import ShaderChannels.Proofs.Binding.Waiting

/-!
# Locality of resolutions

A resolution treats each input by itself.  The position of a buffer stands beside its operations and
in its checks and is used for nothing else, so a buffer comes to the same wherever it is in a list.
And an input that adds no operation can be left out, with no change but that its own error goes.

* `raise` — what is bound to a buffer, and what waits for it, with more buffers before it.
* `Binder.outcome_add` — a buffer further on has the same outcomes, raised.
* `Checks.insertAll_append`, `Checks.insertAll_raise` — checks of later buffers are registered
  after, and independently of, those of earlier ones.
* `Binder.buffers_append`, `Binder.reports_append`, `Binder.checks_append` — the parts of a
  resolution of two lists in a row.
* `Binder.resolve_local` — both kinds of locality for every resolution.
-/

namespace ShaderChannels

/-! ## More buffers before -/

/-- The same channel of the buffer `n` places on. -/
def BindingId.raise (n : Nat) (id : BindingId) : BindingId := ⟨id.buffer + n, id.channel⟩

theorem BindingId.raise_lt_raise_iff {n : Nat} {id id' : BindingId} :
    id.raise n < id'.raise n ↔ id < id' := by
  rw [lt_iff, lt_iff]
  simp only [raise, Nat.add_lt_add_iff_right, Nat.add_right_cancel_iff]

theorem BindingId.raise_inj {n : Nat} {id id' : BindingId} :
    id.raise n = id'.raise n ↔ id = id' := by
  cases id
  cases id'
  simp only [raise, mk.injEq, Nat.add_right_cancel_iff]

/-- The check for the buffer `n` places on. -/
def Check.raise (n : Nat) (c : Check) : Check := { c with id := c.id.raise n }

/-- The buffer with the same operations `n` places on. -/
def ResolvedBuffer.raise (n : Nat) (r : ResolvedBuffer) : ResolvedBuffer := ⟨r.index + n, r.ops⟩

namespace Outcome

/-- What becomes of an input if its buffer stands `n` places on. -/
def raise (n : Nat) : Outcome → Outcome
  | .loads op c => .loads op (c.raise n)
  | .binds op => .binds op
  | .rejected r => .rejected r
  | .dropped => .dropped

variable (n : Nat) (o : Outcome)

@[simp] theorem op?_raise : (o.raise n).op? = o.op? := by cases o <;> rfl

@[simp] theorem report?_raise : (o.raise n).report? = o.report? := by cases o <;> rfl

@[simp] theorem check?_raise : (o.raise n).check? = o.check?.map (·.raise n) := by
  cases o <;> rfl

/-- Only an operation leaves a check. -/
theorem check?_eq_none_of_op? {o : Outcome} (h : o.op? = none) : o.check? = none := by
  cases o with
  | loads => exact nomatch h
  | binds | rejected | dropped => rfl

end Outcome

/-! ## Registering checks of later buffers -/

namespace Checks

/-- The list after checks were put in their places, one after the other. -/
def insertAll (ds new : List Check) : List Check := new.foldl (fun ds c ↦ insert c ds) ds

theorem toList_foldl_register (cs : Checks) (new : List Check) :
    (new.foldl register cs).toList = insertAll cs.toList new :=
  (List.foldl_hom toList fun _ _ ↦ rfl).symm

/-- A check passes by those with lesser ids. -/
theorem insert_append {c : Check} {before : List Check} (ds : List Check)
    (h : ∀ d ∈ before, d.id < c.id) : insert c (before ++ ds) = before ++ insert c ds := by
  induction before with
  | nil => rfl
  | cons d before ih =>
    obtain ⟨lt, h⟩ := List.forall_mem_cons.mp h
    have nlt : ¬ c.id < d.id := fun gt ↦ BindingId.lt_irrefl _ (BindingId.lt_trans lt gt)
    have ne : c.id ≠ d.id := fun eq ↦ nlt (eq ▸ eq ▸ lt)
    rw [List.cons_append, insert, if_neg nlt, if_neg ne, ih h, List.cons_append]

/-- Checks pass by those with ids less than all of theirs. -/
theorem insertAll_append {before new : List Check} (ds : List Check)
    (h : ∀ c ∈ new, ∀ d ∈ before, d.id < c.id) :
    insertAll (before ++ ds) new = before ++ insertAll ds new := by
  induction new generalizing ds with
  | nil => rfl
  | cons c new ih =>
    obtain ⟨hc, h⟩ := List.forall_mem_cons.mp h
    change insertAll (insert c (before ++ ds)) new = before ++ insertAll (insert c ds) new
    rw [insert_append ds hc, ih (insert c ds) h]

theorem insert_raise (n : Nat) (c : Check) (ds : List Check) :
    insert (c.raise n) (ds.map (·.raise n)) = (insert c ds).map (·.raise n) := by
  induction ds with
  | nil => rfl
  | cons d ds ih =>
    have lt : (c.raise n).id < (d.raise n).id ↔ c.id < d.id := BindingId.raise_lt_raise_iff
    have eq : (c.raise n).id = (d.raise n).id ↔ c.id = d.id := BindingId.raise_inj
    simp only [List.map_cons, insert, lt, eq, ih]
    split_ifs <;> rfl

/-- Registering checks further on comes to the same. -/
theorem insertAll_raise (n : Nat) (ds new : List Check) :
    insertAll (ds.map (·.raise n)) (new.map (·.raise n)) = (insertAll ds new).map (·.raise n) := by
  induction new generalizing ds with
  | nil => rfl
  | cons c new ih =>
    change insertAll (insert (c.raise n) (ds.map (·.raise n))) (new.map (·.raise n)) =
      (insertAll (insert c ds) new).map (·.raise n)
    rw [insert_raise, ih]

end Checks

namespace Binder

variable {b : Binder} {buffers : List Buffer} {buffer : Buffer} {t : Texture} {i : Nat}

/-! ## Two lists in a row -/

/-- The position of a buffer enters into its checks and nothing else. -/
theorem outcome_add (b : Binder) (i n : Nat) (buffer : Buffer) (t : Texture) :
    b.outcome (i + n) buffer t = (b.outcome i buffer t).raise n := by
  rw [outcome, outcome]
  cases t.source with
  | cubeMap pattern =>
    dsimp only
    cases pattern.filter CubeMap.hasSingleWildcard with
    | none => rfl
    | some pattern =>
      dsimp only
      cases CubeMap.discover b.host pattern <;> rfl
  | buffer source => rfl
  | localFile p => rfl
  | remoteUrl u => rfl
  | incomplete => rfl

theorem outcomes_add (b : Binder) (i n : Nat) (buffer : Buffer) :
    b.outcomes (i + n) buffer = (b.outcomes i buffer).map (·.raise n) := by
  rw [outcomes, outcomes, List.map_map]
  exact List.map_congr_left fun t _ ↦ outcome_add b i n buffer t

theorem resolveBuffer_add (b : Binder) (i n : Nat) (buffer : Buffer) :
    b.resolveBuffer (i + n) buffer = (b.resolveBuffer i buffer).raise n := by
  simp only [resolveBuffer, outcomes_add, List.filterMap_map, Function.comp_def,
    Outcome.op?_raise, ResolvedBuffer.raise]

/-- The buffers of a second list are numbered on from the first. -/
theorem zipIdx_append_raise (bs cs : List Buffer) :
    (bs ++ cs).zipIdx = bs.zipIdx ++ cs.zipIdx.map fun p ↦ (p.1, p.2 + bs.length) := by
  rw [List.zipIdx_append, Nat.zero_add]
  congr 1
  exact (List.map_snd_add_zipIdx_eq_zipIdx (k := 0)).symm

theorem buffers_append (b : Binder) (bs cs : List Buffer) :
    (b.resolve (bs ++ cs)).buffers =
      (b.resolve bs).buffers ++ (b.resolve cs).buffers.map (·.raise bs.length) := by
  simp only [resolve, zipIdx_append_raise, List.map_append, List.map_map, Function.comp_def,
    resolveBuffer_add]

theorem allOutcomes_append (b : Binder) (bs cs : List Buffer) :
    b.allOutcomes (bs ++ cs) =
      b.allOutcomes bs ++ (b.allOutcomes cs).map (·.raise bs.length) := by
  simp only [allOutcomes, zipIdx_append_raise, List.flatMap_append, List.flatMap_map,
    List.map_flatMap, outcomes_add]

theorem reports_append (b : Binder) (bs cs : List Buffer) :
    (b.resolve (bs ++ cs)).reports = (b.resolve bs).reports ++ (b.resolve cs).reports := by
  simp only [reports_eq, allOutcomes_append, List.filterMap_append, List.filterMap_map,
    Function.comp_def, Outcome.report?_raise]

/-- A check is for one of the buffers. -/
theorem buffer_lt_of_mem_checks {c : Check} (h : c ∈ (b.resolve buffers).checks.toList) :
    c.id.buffer < buffers.length := by
  obtain ⟨o, ho, -⟩ := mem_ids_checks_iff.mp (List.mem_map_of_mem h)
  by_contra out
  have none := List.getElem?_eq_none_iff.mpr (Nat.le_of_not_lt out)
  rw [Resolution.ops, getElem?_buffers_resolve, none] at ho
  exact List.not_mem_nil ho

theorem checks_append (b : Binder) (bs cs : List Buffer) :
    (b.resolve (bs ++ cs)).checks.toList =
      (b.resolve bs).checks.toList ++ (b.resolve cs).checks.toList.map (·.raise bs.length) := by
  have checks (bs : List Buffer) : (b.resolve bs).checks.toList =
      Checks.insertAll [] ((b.allOutcomes bs).filterMap Outcome.check?) :=
    Checks.toList_foldl_register _ _
  have raised : ((b.allOutcomes cs).map (·.raise bs.length)).filterMap Outcome.check? =
      ((b.allOutcomes cs).filterMap Outcome.check?).map (·.raise bs.length) := by
    rw [List.filterMap_map, List.map_filterMap]
    exact List.filterMap_congr fun o _ ↦ Outcome.check?_raise bs.length o
  -- the checks of `bs` are in place before those of `cs`, which are for buffers further on
  have later : ∀ c ∈ ((b.allOutcomes cs).filterMap Outcome.check?).map (·.raise bs.length),
      ∀ d ∈ (b.resolve bs).checks.toList, d.id < c.id := by
    rintro c hc d hd
    obtain ⟨c, -, rfl⟩ := List.mem_map.mp hc
    exact .inl (Nat.lt_of_lt_of_le (buffer_lt_of_mem_checks hd) (Nat.le_add_left _ _))
  calc (b.resolve (bs ++ cs)).checks.toList
    _ = Checks.insertAll (b.resolve bs).checks.toList
          (((b.allOutcomes cs).filterMap Outcome.check?).map (·.raise bs.length)) := by
        rw [checks, checks, allOutcomes_append, List.filterMap_append, raised]
        exact List.foldl_append
    _ = (b.resolve bs).checks.toList ++ Checks.insertAll []
          (((b.allOutcomes cs).filterMap Outcome.check?).map (·.raise bs.length)) := by
        rw [← Checks.insertAll_append [] later, List.append_nil]
    _ = (b.resolve bs).checks.toList ++
          (b.resolve cs).checks.toList.map (·.raise bs.length) := by
        rw [checks cs, ← Checks.insertAll_raise]
        rfl

/-! ## Leaving out an input -/

/-- What becomes of an input depends on the file of its buffer and not on the inputs beside it. -/
theorem outcomes_of_cut (i : Nat) {before after : List Texture}
    (cut : buffer.textures = before ++ t :: after) :
    b.outcomes i buffer = b.outcomes i { buffer with textures := before } ++
      b.outcome i buffer t :: b.outcomes i { buffer with textures := after } := by
  rw [outcomes, cut, List.map_append, List.map_cons]
  rfl

theorem outcomes_append (b : Binder) (i : Nat) (buffer : Buffer) (before after : List Texture) :
    b.outcomes i { buffer with textures := before ++ after } =
      b.outcomes i { buffer with textures := before } ++
        b.outcomes i { buffer with textures := after } :=
  List.map_append

/-- An input from which nothing is taken can be left out. -/
theorem filterMap_outcomes_without {α : Type} {f : Outcome → Option α} {before after : List Texture}
    (cut : buffer.textures = before ++ t :: after) (quiet : f (b.outcome i buffer t) = none) :
    (b.outcomes i { buffer with textures := before ++ after }).filterMap f =
      (b.outcomes i buffer).filterMap f := by
  rw [outcomes_append, outcomes_of_cut i cut, List.filterMap_append, List.filterMap_append,
    List.filterMap_cons_none quiet]

/-- A buffer in whose place another one has the same operations may be exchanged for that one. -/
theorem buffers_set {x y : Buffer} (hx : buffers[i]? = some x)
    (same : b.resolveBuffer i y = b.resolveBuffer i x) :
    (b.resolve (buffers.set i y)).buffers = (b.resolve buffers).buffers := by
  obtain ⟨xs, ys, rfl, rfl⟩ := exists_cut_of_getElem? hx
  rw [List.set_append_right _ _ (Nat.le_refl _), Nat.sub_self, List.set_cons_zero, resolve,
    resolve, List.zipIdx_append, List.zipIdx_append, List.zipIdx_cons, List.zipIdx_cons]
  simp only [List.map_append, List.map_cons, Nat.zero_add, same]

theorem reports_cons (b : Binder) (x : Buffer) (ys : List Buffer) :
    (b.resolve (x :: ys)).reports =
      (b.outcomes 0 x).filterMap Outcome.report? ++ (b.resolve ys).reports := by
  have one : (b.resolve [x]).reports = (b.outcomes 0 x).filterMap Outcome.report? := by
    rw [reports_eq, allOutcomes, List.zipIdx_singleton, List.flatMap_singleton]
  rw [← List.singleton_append, reports_append, one]

theorem reports_concat (b : Binder) (xs : List Buffer) (x : Buffer) :
    (b.resolve (xs ++ [x])).reports =
      (b.resolve xs).reports ++ (b.outcomes 0 x).filterMap Outcome.report? := by
  rw [reports_append, reports_cons]
  exact congrArg _ (List.append_nil _)

/-- The errors are those of the inputs before one, its own and those of the inputs after. -/
theorem reports_of_cut (b : Binder) (i : Nat) (xs ys : List Buffer) {before after : List Texture}
    (cut : buffer.textures = before ++ t :: after) :
    (b.resolve (xs ++ buffer :: ys)).reports =
      (b.resolve (xs ++ [{ buffer with textures := before }])).reports ++
        ((b.outcome i buffer t).report?.toList ++
          (b.resolve ({ buffer with textures := after } :: ys)).reports) := by
  have anywhere : (b.outcome i buffer t).report? = (b.outcome 0 buffer t).report? := by
    rw [← Nat.zero_add i, outcome_add, Outcome.report?_raise]
  rw [reports_append, reports_cons, reports_concat, reports_cons, outcomes_of_cut 0 cut, anywhere,
    List.filterMap_append, List.filterMap_cons]
  cases (b.outcome 0 buffer t).report? <;> simp

/-- Without an input the errors are those of the inputs before it and of those after. -/
theorem reports_without (b : Binder) (xs ys : List Buffer) (buffer : Buffer)
    (before after : List Texture) :
    (b.resolve (xs ++ { buffer with textures := before ++ after } :: ys)).reports =
      (b.resolve (xs ++ [{ buffer with textures := before }])).reports ++
        (b.resolve ({ buffer with textures := after } :: ys)).reports := by
  rw [reports_append, reports_cons, reports_concat, reports_cons, outcomes_append,
    List.filterMap_append, List.append_assoc, List.append_assoc]

/-- **Resolution is local.**  What comes of two lists of buffers in a row is what comes of each: the
second list has the same operations, buffers that operations read included, and its places and its
checks are numbered on from the first.  And an input that adds no operation can be left out, even
one on the channel of another input: all operations and checks stay as they are, and so do the
errors of the inputs before it and after it. -/
theorem resolve_local (b : Binder) :
    (∀ bs cs : List Buffer,
      (b.resolve (bs ++ cs)).buffers =
        (b.resolve bs).buffers ++ (b.resolve cs).buffers.map (·.raise bs.length) ∧
      (b.resolve (bs ++ cs)).reports = (b.resolve bs).reports ++ (b.resolve cs).reports ∧
      (b.resolve (bs ++ cs)).checks.toList =
        (b.resolve bs).checks.toList ++ (b.resolve cs).checks.toList.map (·.raise bs.length)) ∧
    ∀ (buffers : List Buffer) (i : Nat) (buffer : Buffer) (before : List Texture) (t : Texture)
      (after : List Texture), buffers[i]? = some buffer →
      buffer.textures = before ++ t :: after → (b.outcome i buffer t).op? = none →
      let without := buffers.set i { buffer with textures := before ++ after }
      let front := buffers.take i ++ [{ buffer with textures := before }]
      let back := { buffer with textures := after } :: buffers.drop (i + 1)
      (b.resolve without).buffers = (b.resolve buffers).buffers ∧
      (b.resolve without).checks = (b.resolve buffers).checks ∧
      (b.resolve without).reports = (b.resolve front).reports ++ (b.resolve back).reports ∧
      (b.resolve buffers).reports = (b.resolve front).reports ++
        ((b.outcome i buffer t).report?.toList ++ (b.resolve back).reports) := by
  constructor
  · intro bs cs
    exact ⟨buffers_append b bs cs, reports_append b bs cs, checks_append b bs cs⟩
  · intro buffers i buffer before t after hb cut none
    refine ⟨buffers_set hb ?_, checks_set hb ?_, ?_⟩
    · simp only [resolveBuffer, filterMap_outcomes_without cut none]
    · exact filterMap_outcomes_without cut (Outcome.check?_eq_none_of_op? none)
    · obtain ⟨xs, ys, rfl, rfl⟩ := exists_cut_of_getElem? hb
      have later : (xs ++ buffer :: ys).drop (xs.length + 1) = ys := by simp
      rw [List.set_append_right _ _ (Nat.le_refl _), Nat.sub_self, List.set_cons_zero,
        List.take_left, later]
      exact ⟨reports_without b xs ys buffer before after, reports_of_cut b _ xs ys cut⟩

/-- A cube map in error between two local images of its channel, in a buffer after another one.  The
check of the second image is for the second buffer, with the cube map or without. -/
theorem resolve_local_between :
    let b : Binder := { host := .ofFiles [] "res://" }
    let t (file : String) : Texture :=
      { channel := 0, localTexture := some file, mag := some .nearest,
        min := some .unrecognized, wrap := some .mirror }
    let v : Texture := { channel := 0, type := .cubeMap, typeLine := some 9 }
    let x : Buffer := { name := "Common", file := "common.glsl", textures := [t "a.png"] }
    let y : Buffer :=
      { name := "Image", file := "image.glsl", textures := [t "b.png", v, t "c.png"],
        usesKeyboard := true }
    let y' : Buffer := { y with textures := [t "b.png", t "c.png"] }
    [x, y][1]? = some y ∧ y.textures = [t "b.png"] ++ v :: [t "c.png"] ∧
      (b.outcome 1 y v).op? = none ∧
      (b.resolve [x, y']).buffers = (b.resolve [x, y]).buffers ∧
      (b.resolve [x, y']).checks = (b.resolve [x, y]).checks ∧
      (b.resolve [x, y']).reports = [] ∧
      (b.resolve [x, y]).reports = [inputError y v patternError] ∧
      (b.resolve [x, y]).checks.ids = [⟨0, 0⟩, ⟨1, 0⟩] := by
  intro b t v x y y'
  have apart := (resolve_local b).1 [x] [y]
  obtain ⟨buffers, checks, without, within⟩ :=
    (resolve_local b).2 [x, y] 1 y [t "b.png"] v [t "c.png"] rfl rfl rfl
  refine ⟨rfl, rfl, rfl, buffers, checks, without, within, ?_⟩
  rw [Checks.ids, show [x, y] = [x] ++ [y] from rfl, apart.2.2]
  rfl

end Binder

end ShaderChannels
