import ShaderChannels.Proofs.Binding.Supplier

/-!
# Checks that wait

A resolution holds its operations in lists that only grow, and its checks in one registry where a
check gives way to a later one of the same binding.  The two agree: a check waits for a binding
exactly if an operation loads an image for it, and the check is about the last such operation.

* `LastLoad` — an input and its operation, the last that loads an image for a binding.
* `exists_supplier_iff_lastLoad` — the supplier of a binding, which the registry is read by, is that input.
* `checks_set` — the registry does not depend on anything but the checks of the outcomes.
* `checks_mirror_ops` — all of this for every resolution.
-/

namespace ShaderChannels.Binder

variable {b : Binder} {buffers : List Buffer} {buffer : Buffer} {t : Texture} {o : Op}
  {id : BindingId} {i : Nat}

/-! ## Operations of a buffer -/

/-- Operations that every buffer ends with, if it asks for them. -/
def ownOps (b : Binder) (buffer : Buffer) : List Op :=
  (if buffer.usesSelf then [.selfFeedback buffer.selfChannel] else []) ++
    (if buffer.usesKeyboard then [.keyboard b.keyboard] else [])

theorem loadsImage_of_mem_ownOps (h : o ∈ b.ownOps buffer) : o.loadsImage = false := by
  rw [ownOps, List.mem_append, List.mem_ite_nil_right, List.mem_ite_nil_right,
    List.mem_singleton, List.mem_singleton] at h
  rcases h with ⟨-, rfl⟩ | ⟨-, rfl⟩ <;> rfl

theorem ops_resolve (h : buffers[i]? = some buffer) :
    (b.resolve buffers).ops i =
      (b.contributions buffer).filterMap Contribution.op? ++ b.ownOps buffer := by
  rw [Resolution.ops, getElem?_buffers_resolve, h, Option.map_some, resolveBuffer_eq, ownOps,
    ← List.append_assoc]
  rfl

theorem forall₂_contributes (b : Binder) (buffer : Buffer) (ts : List Texture) :
    List.Forall₂ (Contributes b buffer) ts
      (ts.map fun t ↦ .ofOutcome (b.outcome 0 buffer t)) := by
  rw [List.forall₂_map_right_iff, List.forall₂_same]
  exact fun t _ ↦ (contributes_iff 0).mpr rfl

theorem eq_of_forall₂_contributes {ts : List Texture} {parts : List Contribution}
    (h : List.Forall₂ (Contributes b buffer) ts parts) :
    parts = ts.map fun t ↦ .ofOutcome (b.outcome 0 buffer t) := by
  induction h with
  | nil => rfl
  | cons first _ ih => rw [List.map_cons, ← ih, ← (contributes_iff 0).mp first]

/-- An operation stands among those of its buffer where its input stands among the inputs. -/
theorem ops_resolve_of_contributes (h : buffers[i]? = some buffer) {before after : List Texture}
    (cut : buffer.textures = before ++ t :: after) (one : Contributes b buffer t (.op o))
    {parts later : List Contribution} (hb : List.Forall₂ (Contributes b buffer) before parts)
    (ha : List.Forall₂ (Contributes b buffer) after later) :
    (b.resolve buffers).ops i = parts.filterMap Contribution.op? ++
      o :: (later.filterMap Contribution.op? ++ b.ownOps buffer) := by
  have all : List.Forall₂ (Contributes b buffer) buffer.textures (parts ++ .op o :: later) := by
    rw [cut]
    exact List.rel_append hb (.cons one ha)
  have same : b.contributions buffer = parts ++ .op o :: later :=
    (eq_of_forall₂_contributes (forall₂_contributions b buffer)).trans
      (eq_of_forall₂_contributes all).symm
  rw [ops_resolve h, same]
  simp [Contribution.op?]

/-! ## The last operation -/

/-- `LastLoad b buffers id buffer t o`: the input `t` of `buffer` is bound to `id`, its operation
`o` loads an image, and none of the operations that come after `o` loads one for the same
channel. -/
structure LastLoad (b : Binder) (buffers : List Buffer) (id : BindingId) (buffer : Buffer)
    (t : Texture) (o : Op) : Prop where
  buffer_eq : buffers[id.buffer]? = some buffer
  contributes : Contributes b buffer t (.op o)
  loadsImage : o.loadsImage
  channel_eq : o.channel? = some id.channel
  last : ∃ before after parts ops, buffer.textures = before ++ t :: after ∧
    List.Forall₂ (Contributes b buffer) before parts ∧
    (b.resolve buffers).ops id.buffer = parts.filterMap Contribution.op? ++ o :: ops ∧
    ∀ p ∈ ops, p.loadsImage → p.channel? ≠ some id.channel

/-- An input among those of a channel stands among all inputs, with the others of the channel
around it. -/
theorem inputs_eq_iff {c : Channel} {ts us : List Texture} :
    buffer.inputs c = ts ++ t :: us ↔ ∃ before after, buffer.textures = before ++ t :: after ∧
      before.filter (·.channel == c) = ts ∧ t.channel = c ∧
      after.filter (·.channel == c) = us := by
  rw [Buffer.inputs, List.filter_eq_append_iff]
  constructor
  -- a filter leaves the first of its elements behind others, which it drops
  · rintro ⟨front, back, cut, hts, hback⟩
    obtain ⟨others, after, rfl, none, fits, hus⟩ := List.filter_eq_cons_iff.mp hback
    refine ⟨front ++ others, after, by rw [cut, List.append_assoc], ?_, by simpa using fits, hus⟩
    rw [List.filter_append, hts, List.filter_eq_nil_iff.mpr none, List.append_nil]
  · rintro ⟨before, after, cut, hts, fits, hus⟩
    refine ⟨before, t :: after, cut, hts, ?_⟩
    rw [List.filter_cons_of_pos (by simpa using fits), hus]

/-- The operations after one are those that the inputs after its own add, and the buffer's own.
None of them loads an image for a channel exactly if none of these inputs does. -/
theorem not_loads_after_iff {after : List Texture} {later : List Contribution} {c : Channel}
    (ha : List.Forall₂ (Contributes b buffer) after later) :
    (∀ p ∈ later.filterMap Contribution.op? ++ b.ownOps buffer,
        p.loadsImage → p.channel? ≠ some c) ↔
      ∀ u ∈ after.filter (·.channel == c), ∀ p, ¬ Loads b buffer u p := by
  have adds (p : Op) : p ∈ later.filterMap Contribution.op? ↔
      ∃ u ∈ after, Contributes b buffer u (.op p) := by
    rw [eq_of_forall₂_contributes ha]
    simp only [List.filterMap_map, List.mem_filterMap, Function.comp_apply,
      Contribution.op?_ofOutcome, contributes_op_iff 0]
  constructor
  · rintro none u hu p ⟨contributes, loads⟩
    obtain ⟨hu, fits⟩ := List.mem_filter.mp hu
    refine none p (List.mem_append_left _ ((adds p).mpr ⟨u, hu, contributes⟩)) loads ?_
    rw [contributes.channel_eq, eq_of_beq fits]
  · intro none p hp loads fits
    rcases List.mem_append.mp hp with hp | hp
    · obtain ⟨u, hu, contributes⟩ := (adds p).mp hp
      have channel := Option.some.inj (contributes.channel_eq.symm.trans fits)
      exact none u (List.mem_filter.mpr ⟨hu, beq_iff_eq.mpr channel⟩) p ⟨contributes, loads⟩
    -- the previous frame and the keyboard are no images
    · rw [loadsImage_of_mem_ownOps hp] at loads
      exact Bool.false_ne_true loads

theorem exists_supplier_iff_lastLoad :
    (∃ after, Supplier b buffers id buffer t o after) ↔ LastLoad b buffers id buffer t o := by
  constructor
  · rintro ⟨us, hb, ⟨ts, declared⟩, ⟨contributes, loads⟩, none⟩
    obtain ⟨before, after, cut, -, fits, rfl⟩ := inputs_eq_iff.mp declared
    have earlier := forall₂_contributes b buffer before
    have later := forall₂_contributes b buffer after
    refine ⟨hb, contributes, loads, by rw [contributes.channel_eq, fits],
      before, after, _, _, cut, earlier,
      ops_resolve_of_contributes hb cut contributes earlier later, ?_⟩
    exact (not_loads_after_iff later).mpr none
  · rintro ⟨hb, contributes, loads, fits, before, after, parts, ops, cut, earlier, split, none⟩
    have later := forall₂_contributes b buffer after
    rw [ops_resolve_of_contributes hb cut contributes earlier later,
      List.append_cancel_left_eq, List.cons.injEq] at split
    rw [← split.2, not_loads_after_iff later] at none
    have channel := Option.some.inj (contributes.channel_eq.symm.trans fits)
    exact ⟨_, hb, ⟨_, inputs_eq_iff.mpr ⟨before, after, cut, rfl, channel, rfl⟩⟩,
      ⟨contributes, loads⟩, none⟩

theorem mem_ids_checks_iff :
    id ∈ (b.resolve buffers).checks.ids ↔
      ∃ o ∈ (b.resolve buffers).ops id.buffer, o.loadsImage ∧ o.channel? = some id.channel := by
  have bound : (∃ o, Probe.boundOp? (b.resolve buffers) id = some o) ↔
      ∃ o ∈ (b.resolve buffers).ops id.buffer, o.loadsImage ∧ o.channel? = some id.channel := by
    simp [Probe.boundOp?, ← Option.isSome_iff_exists]
  rw [← bound, Checks.mem_ids_iff]
  simp only [get?_checks_eq_some_iff, boundOp?_eq_some_iff]
  constructor
  · rintro ⟨c, buffer, t, o, after, h, -⟩
    exact ⟨o, buffer, t, after, h⟩
  · rintro ⟨o, buffer, t, after, h⟩
    exact ⟨_, buffer, t, o, after, h, rfl⟩

theorem get?_checks_iff {c : Check} :
    (b.resolve buffers).checks.get? id = some c ↔
      ∃ buffer t o, LastLoad b buffers id buffer t o ∧
        c = ⟨id, t.fileIn buffer, t.settingLines⟩ := by
  simp only [get?_checks_eq_some_iff, ← exists_supplier_iff_lastLoad]
  constructor
  · rintro ⟨buffer, t, o, after, h, rfl⟩
    exact ⟨buffer, t, o, ⟨after, h⟩, rfl⟩
  · rintro ⟨buffer, t, o, ⟨after, h⟩, rfl⟩
    exact ⟨buffer, t, o, after, h, rfl⟩

/-! ## What leaves the checks alone -/

theorem allOutcomes_append_cons (b : Binder) (xs : List Buffer) (x : Buffer) (ys : List Buffer) :
    b.allOutcomes (xs ++ x :: ys) = b.allOutcomes xs ++ (b.outcomes xs.length x ++
      (ys.zipIdx (xs.length + 1)).flatMap fun p ↦ b.outcomes p.2 p.1) := by
  simp [allOutcomes, List.zipIdx_append, List.zipIdx_cons]

theorem exists_cut_of_getElem? {x : Buffer} (hx : buffers[i]? = some x) :
    ∃ xs ys, buffers = xs ++ x :: ys ∧ i = xs.length := by
  obtain ⟨lt, rfl⟩ := List.getElem?_eq_some_iff.mp hx
  refine ⟨buffers.take i, buffers.drop (i + 1), ?_, ?_⟩
  · rw [List.getElem_cons_drop, List.take_append_drop]
  · rw [List.length_take_of_le (Nat.le_of_lt lt)]

/-- A buffer in whose place another one leaves the same checks may be exchanged for that one. -/
theorem checks_set {x y : Buffer} (hx : buffers[i]? = some x)
    (same : (b.outcomes i y).filterMap Outcome.check? =
      (b.outcomes i x).filterMap Outcome.check?) :
    (b.resolve (buffers.set i y)).checks = (b.resolve buffers).checks := by
  obtain ⟨xs, ys, rfl, rfl⟩ := exists_cut_of_getElem? hx
  rw [List.set_append_right _ _ (Nat.le_refl _), Nat.sub_self, List.set_cons_zero, checks_eq,
    checks_eq, allOutcomes_append_cons, allOutcomes_append_cons]
  simp only [List.filterMap_append, same]

theorem Contributes.unique {c c' : Contribution} (h : Contributes b buffer t c)
    (h' : Contributes b buffer t c') : c = c' :=
  (h.eq_ofOutcome 0).trans (h'.eq_ofOutcome 0).symm

/-- An input that adds no operation, or one that reads a buffer, leaves no check. -/
theorem check?_outcome_eq_none
    (h : Contributes b buffer t .nothing ∨ (∃ r, Contributes b buffer t (.error r)) ∨
      ∃ c source, Contributes b buffer t (.op (.buffer c source))) :
    (b.outcome i buffer t).check? = none := by
  have none : b.loading? buffer t = none := by
    rw [loading?_eq_none_iff]
    rintro o ⟨contributes, loads⟩
    rcases h with h | ⟨r, h⟩ | ⟨c, source, h⟩
    · exact nomatch contributes.unique h
    · exact nomatch contributes.unique h
    · obtain rfl := Contribution.op.inj (contributes.unique h)
      exact Bool.false_ne_true loads
  rw [check?_outcome, none]
  rfl

/-- **Checks mirror operations.**  A check waits for a binding exactly if an operation loads an image
for it.  It is about the input of the last such operation: it names the file of that input, or else
that of the buffer, and the lines that the filters, the wrap mode and the type were declared on.
There is one check for each binding, by increasing buffer and channel.  Inputs that read a buffer,
are in error or are passed over can be left out without a change to any check, wherever they stand,
and so can the previous frame and the keyboard. -/
theorem checks_mirror_ops (b : Binder) (buffers : List Buffer) :
    (∀ id, id ∈ (b.resolve buffers).checks.ids ↔
      ∃ o ∈ (b.resolve buffers).ops id.buffer, o.loadsImage ∧ o.channel? = some id.channel) ∧
    (∀ id c, (b.resolve buffers).checks.get? id = some c ↔
      ∃ buffer t o, LastLoad b buffers id buffer t o ∧
        c = ⟨id, t.file.getD buffer.file,
          [t.magLine, t.minLine, t.wrapLine, t.typeLine].reduceOption⟩) ∧
    (b.resolve buffers).checks.ids.Pairwise (fun i j ↦
      i.buffer < j.buffer ∨ i.buffer = j.buffer ∧ i.channel < j.channel) ∧
    (∀ i buffer before t after, buffers[i]? = some buffer →
      buffer.textures = before ++ t :: after →
      (Contributes b buffer t .nothing ∨ (∃ r, Contributes b buffer t (.error r)) ∨
        ∃ c source, Contributes b buffer t (.op (.buffer c source))) →
      (b.resolve (buffers.set i { buffer with textures := before ++ after })).checks =
        (b.resolve buffers).checks) ∧
    ∀ i buffer usesSelf selfChannel usesKeyboard keyboard, buffers[i]? = some buffer →
      (resolve { b with keyboard }
        (buffers.set i { buffer with usesSelf, selfChannel, usesKeyboard })).checks =
        (b.resolve buffers).checks := by
  refine ⟨fun id ↦ mem_ids_checks_iff, fun id c ↦ get?_checks_iff, ?_, ?_, ?_⟩
  · exact List.pairwise_map.mpr (b.resolve buffers).checks.sorted
  · intro i buffer before t after hb cut quiet
    refine checks_set hb ?_
    have none : (b.outcome i buffer t).check? = none := check?_outcome_eq_none quiet
    change ((before ++ after).map (b.outcome i buffer)).filterMap _ =
      (buffer.textures.map (b.outcome i buffer)).filterMap _
    rw [cut, List.map_append, List.map_append, List.map_cons, List.filterMap_append,
      List.filterMap_append, List.filterMap_cons_none none]
  · intro i buffer usesSelf selfChannel usesKeyboard keyboard hb
    exact checks_set hb rfl

/-- The check of a channel with a local image, then a remote one, then a cube map in error is about
the remote image. -/
theorem checks_mirror_ops_rebound :
    let b : Binder := { host := .ofFiles [] "res://" }
    let t : Texture :=
      { channel := 0, localTexture := some "a.png", mag := some .nearest,
        min := some .unrecognized, wrap := some .mirror, magLine := some 2 }
    let u : Texture :=
      { t with
        localTexture := none, remoteTexture := some "b.png", file := some "common.glsl",
        magLine := none, wrapLine := some 7, minLine := some 5 }
    let v : Texture := { channel := 0, type := .cubeMap, typeLine := some 9 }
    let buffer : Buffer := { name := "Image", file := "image.glsl", textures := [t, u, v] }
    ⟨0, 0⟩ ∈ (b.resolve [buffer]).checks.ids ∧
      (b.resolve [buffer]).checks.get? ⟨0, 0⟩ = some ⟨⟨0, 0⟩, "common.glsl", [5, 7]⟩ ∧
      (b.resolve ([buffer].set 0 { buffer with textures := [t, u] })).checks =
        (b.resolve [buffer]).checks := by
  intro b t u v buffer
  have ht : Contributes b buffer t (.op (.file 0 (b.locate "a.png") t.sampler)) :=
    .file rfl rfl rfl rfl rfl rfl
  have hu : Contributes b buffer u (.op (.remote 0 "b.png" u.sampler)) :=
    .remote rfl rfl rfl rfl rfl rfl rfl
  have hv : Contributes b buffer v (.error (inputError buffer v patternError)) :=
    .pattern rfl fun _ h ↦ nomatch h
  have last : LastLoad b [buffer] ⟨0, 0⟩ buffer u (.remote 0 "b.png" u.sampler) :=
    ⟨rfl, hu, rfl, rfl, [t], [v], _, [], rfl, .cons ht .nil, by decide +kernel, by simp⟩
  obtain ⟨ids, checks, -, leave, -⟩ := checks_mirror_ops b [buffer]
  refine ⟨(ids _).mpr ⟨.remote 0 "b.png" u.sampler, ?_, rfl, rfl⟩,
    (checks _ _).mpr ⟨_, _, _, last, rfl⟩, ?_⟩
  · obtain ⟨before, after, parts, ops, -, -, split, -⟩ := last.last
    rw [split]
    exact List.mem_append_right _ List.mem_cons_self
  · exact leave 0 buffer [t, u] v [] rfl rfl (.inr (.inl ⟨_, hv⟩))

end ShaderChannels.Binder
