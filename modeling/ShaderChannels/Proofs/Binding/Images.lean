import ShaderChannels.Proofs.Binding.Occupancy

/-!
# Images of sound documents

A check is registered for each image that is loaded, in the order of the operations.  Where a
channel of a buffer is filled with two images, the later check replaces the earlier one.  In a sound
document that never happens, so the checks that wait and the images are as many.

* `Resolution.loads` — the channels that images are loaded into, in the order of the operations.
* `Binder.ids_checks` — the checks that are registered are for these channels, in order.
* `Checks.ids_foldl_register_perm` — if no two checks are for one channel, all are kept.
* `Binder.nodup_loads` — a sound document loads one image into a channel at most.
* `Binder.resolve_sound` — what is bound for a document without issues.
-/

namespace ShaderChannels

/-- The channel of buffer number `i` that an operation loads an image into. -/
def Op.load? (i : Nat) (o : Op) : Option BindingId :=
  if o.loadsImage then o.channel?.map (⟨i, ·⟩) else none

/-- The channels that images are loaded into, in the order of the operations. -/
def Resolution.loads (r : Resolution) : List BindingId :=
  r.buffers.flatMap fun x ↦ x.ops.filterMap (Op.load? x.index)

namespace Op

variable {o : Op} {i : Nat} {id : BindingId}

theorem load?_eq_some_iff :
    o.load? i = some id ↔ o.loadsImage ∧ id.buffer = i ∧ o.channel? = some id.channel := by
  obtain ⟨j, c⟩ := id
  cases o <;> simp [load?, loadsImage, channel?, eq_comm]

/-- Each operation that loads an image fills a channel. -/
theorem isSome_load? (o : Op) (i : Nat) : (o.load? i).isSome = o.loadsImage := by
  cases o <;> rfl

end Op

/-- All images are counted. -/
theorem Resolution.length_loads (r : Resolution) :
    r.loads.length = (r.buffers.flatMap ResolvedBuffer.ops).countP Op.loadsImage := by
  simp only [loads, List.length_flatMap, List.countP_flatMap, List.length_filterMap_eq_countP,
    Op.isSome_load?]
  rfl

namespace Checks

/-- The ids read from checks that are registered one after the other are those of the checks. -/
theorem mem_ids_foldl_register_iff (new : List Check) (id : BindingId) :
    id ∈ (new.foldl register empty).ids ↔ id ∈ new.map (·.id) := by
  rw [mem_ids_iff, ← Option.isSome_iff_exists, get?_foldl_register, get?_empty, Option.or_none,
    List.find?_isSome, List.mem_map]
  simp only [List.mem_reverse, beq_iff_eq]

/-- If no two checks are for one channel, all are kept. -/
theorem ids_foldl_register_perm {new : List Check} (h : (new.map (·.id)).Nodup) :
    (new.foldl register empty).ids.Perm (new.map (·.id)) := by
  apply (List.perm_ext_iff_of_nodup (nodup_ids _) h).mpr
  exact mem_ids_foldl_register_iff new

/-- If no two checks are for one channel, none is replaced. -/
theorem get?_eq_none_of_nodup {before after : List Check} {c : Check}
    (h : ((before ++ c :: after).map (·.id)).Nodup) :
    (before.foldl register empty).get? c.id = none := by
  rw [get?_foldl_register, get?_empty, Option.or_none, List.find?_eq_none]
  intro d hd same
  rw [List.map_append, List.map_cons] at h
  refine (List.nodup_append.mp h).2.2 d.id ?_ c.id List.mem_cons_self (eq_of_beq same)
  exact List.mem_map_of_mem (List.mem_reverse.mp hd)

end Checks

namespace Binder

variable {b : Binder} {buffers : List Buffer} {buffer : Buffer} {o : Op} {i : Nat} {c : Channel}

/-! ## Checks and images -/

/-- The check of an input is for the channel that its image is loaded into. -/
theorem id_check?_outcome (b : Binder) (i : Nat) (buffer : Buffer) (t : Texture) :
    (b.outcome i buffer t).check?.map (·.id) = (b.outcome i buffer t).op?.bind (Op.load? i) := by
  rw [check?_outcome, ← filter_op?_outcome b i, Option.map_map]
  cases h : (b.outcome i buffer t).op? with
  | none => rfl
  | some o =>
    have channel := ((contributes_op_iff i).mpr h).channel_eq
    rw [Option.filter_some, Option.bind_some, Op.load?, channel]
    split_ifs <;> rfl

/-- The previous frame and the keyboard are no images. -/
theorem filterMap_load?_ownOps (b : Binder) (i : Nat) (buffer : Buffer) :
    (b.ownOps buffer).filterMap (Op.load? i) = [] := by
  rw [List.filterMap_eq_nil_iff]
  intro o ho
  rw [Op.load?, loadsImage_of_mem_ownOps ho]
  rfl

theorem ids_checks_outcomes (b : Binder) (i : Nat) (buffer : Buffer) :
    ((b.outcomes i buffer).filterMap Outcome.check?).map (·.id) =
      (b.resolveBuffer i buffer).ops.filterMap (Op.load? i) := by
  have own : (b.resolveBuffer i buffer).ops =
      (b.outcomes i buffer).filterMap Outcome.op? ++ b.ownOps buffer :=
    List.append_assoc _ _ _
  rw [own, List.filterMap_append, filterMap_load?_ownOps, List.append_nil, List.map_filterMap,
    List.filterMap_filterMap, outcomes, List.filterMap_map, List.filterMap_map]
  exact List.filterMap_congr fun t _ ↦ id_check?_outcome b i buffer t

/-- The checks that are registered are for the channels that images are loaded into, in order. -/
theorem ids_checks (b : Binder) (buffers : List Buffer) :
    ((b.allOutcomes buffers).filterMap Outcome.check?).map (·.id) =
      (b.resolve buffers).loads := by
  rw [Resolution.loads, resolve, allOutcomes, List.filterMap_flatMap, List.map_flatMap,
    List.flatMap_map]
  simp only [ids_checks_outcomes]
  rfl

/-! ## Sound documents -/

/-- Each buffer is numbered by its position. -/
theorem indices_resolve (b : Binder) (buffers : List Buffer) :
    (b.resolve buffers).buffers.map (·.index) = List.range buffers.length := by
  rw [resolve, List.map_map, List.range_eq_range']
  exact List.zipIdx_map_snd 0 buffers

/-- With inputs on different channels, a buffer loads one image into a channel at most. -/
theorem nodup_load? (h : buffers[i]? = some buffer)
    (distinct : (buffer.textures.map Texture.channel).Nodup) :
    (((b.resolve buffers).ops i).filterMap (Op.load? i)).Nodup := by
  rw [List.nodup_iff_pairwise_ne, List.pairwise_filterMap]
  refine (pairwise_ops h distinct).imp ?_
  rintro o p apart id ho _ hp rfl
  obtain ⟨-, -, hoc⟩ := Op.load?_eq_some_iff.mp ho
  obtain ⟨loads, -, hpc⟩ := Op.load?_eq_some_iff.mp hp
  -- the later of two operations on one channel reads the previous frame, which is no image
  rw [apart id.channel hoc hpc] at loads
  exact Bool.false_ne_true loads

theorem nodup_loads (b : Binder)
    (h : ∀ buffer ∈ buffers, (buffer.textures.map Texture.channel).Nodup) :
    (b.resolve buffers).loads.Nodup := by
  rw [Resolution.loads, List.nodup_flatMap]
  constructor
  · intro x hx
    obtain ⟨i, entry⟩ := List.mem_iff_getElem?.mp hx
    have ops : (b.resolve buffers).ops i = x.ops := by rw [Resolution.ops, entry]
    rw [getElem?_buffers_resolve, Option.map_eq_some_iff] at entry
    obtain ⟨buffer, hb, rfl⟩ := entry
    rw [← ops]
    exact nodup_load? hb (h buffer (List.mem_of_getElem? hb))
  · have indices : ((b.resolve buffers).buffers.map (·.index)).Nodup := by
      rw [indices_resolve]
      exact List.nodup_range
    refine (List.pairwise_map.mp indices).imp ?_
    intro x y ne id hx hy
    obtain ⟨o, -, ho⟩ := List.mem_filterMap.mp hx
    obtain ⟨p, -, hp⟩ := List.mem_filterMap.mp hy
    obtain ⟨-, hox, -⟩ := Op.load?_eq_some_iff.mp ho
    obtain ⟨-, hpy, -⟩ := Op.load?_eq_some_iff.mp hp
    exact ne (hox.symm.trans hpy)

/-- The channels that are filled exist. -/
theorem channel_lt_of_sound {count : Nat} (sound : buffer.Sound count i)
    (h : (∃ t ∈ buffer.textures, Contributes b buffer t (.op o)) ∨ o ∈ b.ownOps buffer)
    (hc : o.channel? = some c) : c < channelLimit := by
  rcases h with ⟨t, ht, contributes⟩ | own
  · obtain rfl : t.channel = c := Option.some.inj (contributes.channel_eq.symm.trans hc)
    exact (sound.inputs t ht).channel_lt
  · obtain ⟨own, rfl, -⟩ := eq_selfFeedback_of_mem_ownOps own hc
    exact sound.feedback own

/-- The buffers that are read exist, and are not the buffer that reads them. -/
theorem source_of_sound {count source : Nat} (sound : buffer.Sound count i)
    (h : (∃ t ∈ buffer.textures, Contributes b buffer t (.op (.buffer c source))) ∨
      .buffer c source ∈ b.ownOps buffer) : source < count ∧ source ≠ i := by
  rcases h with ⟨t, ht, contributes⟩ | own
  · cases contributes with
    | buffer type index => exact (sound.inputs t ht).reference source index
  · exact nomatch (eq_selfFeedback_of_mem_ownOps own rfl).2.2

/-- **Sound documents are bound soundly.**  In a document without issues, operations fill channels
that exist and read buffers that exist, other than their own.  No check is replaced when the next
one is registered: the checks that wait are for the channels that images are loaded into, each of
them once, and there are as many checks as operations that load an image. -/
theorem resolve_sound {d : Document} (h : d.issues = []) (b : Binder) :
    (∀ i, ∀ o ∈ (b.resolve d.buffers).ops i, ∀ c, o.channel? = some c → c < channelLimit) ∧
    (∀ i c source, .buffer c source ∈ (b.resolve d.buffers).ops i →
      source < d.buffers.length ∧ source ≠ i) ∧
    (∀ before c after,
      (b.allOutcomes d.buffers).filterMap Outcome.check? = before ++ c :: after →
      (before.foldl Checks.register Checks.empty).get? c.id = none) ∧
    (b.resolve d.buffers).loads.Nodup ∧
    (b.resolve d.buffers).checks.ids.Perm (b.resolve d.buffers).loads ∧
    (b.resolve d.buffers).checks.size =
      ((b.resolve d.buffers).buffers.flatMap ResolvedBuffer.ops).countP Op.loadsImage := by
  have sound := d.issues_eq_nil_iff.mp h
  have distinct : (b.resolve d.buffers).loads.Nodup := by
    refine nodup_loads b fun buffer hb ↦ ?_
    obtain ⟨i, hi⟩ := List.mem_iff_getElem?.mp hb
    exact (sound.buffers i buffer hi).channels
  have registered := ids_checks b d.buffers
  have kept : (b.resolve d.buffers).checks.ids.Perm (b.resolve d.buffers).loads := by
    rw [checks_eq, ← registered]
    apply Checks.ids_foldl_register_perm
    rwa [registered]
  refine ⟨?_, ?_, ?_, distinct, kept, ?_⟩
  · intro i o ho c hc
    obtain ⟨buffer, hb, ho⟩ := mem_ops_resolve_iff.mp ho
    exact channel_lt_of_sound (sound.buffers i buffer hb) ho hc
  · intro i c source ho
    obtain ⟨buffer, hb, ho⟩ := mem_ops_resolve_iff.mp ho
    exact source_of_sound (sound.buffers i buffer hb) ho
  · intro before c after cut
    have apart : ((before ++ c :: after).map (·.id)).Nodup := by
      rwa [← cut, registered]
    exact Checks.get?_eq_none_of_nodup apart
  · rw [← Resolution.length_loads, ← kept.length_eq, Checks.ids, List.length_map, Checks.size]

/-- A buffer with an image and its previous frame, and one that reads the first and has a remote
image on the last channel.  Both images keep their checks. -/
theorem resolve_sound_feedback :
    let b : Binder := { host := .ofFiles [] "res://" }
    let t : Texture :=
      { channel := 0, localTexture := some "noise.png", mag := some .linear, min := some .linear,
        wrap := some .repeated }
    let u : Texture := { channel := 0, bufferIndex := some 0 }
    let v : Texture :=
      { channel := 3, remoteTexture := some "wood.png", mag := some .nearest, min := some .linear,
        wrap := some .unrecognized, wrapLine := some 4 }
    let d : Document :=
      { buffers :=
          [{ name := "A", textures := [t], usesSelf := true, selfChannel := 1 },
            { name := "Image", textures := [v, u], usesKeyboard := true }] }
    d.issues = [] ∧ (∀ o ∈ (b.resolve d.buffers).ops 1, ∀ c, o.channel? = some c → c < 4) ∧
      (0 < d.buffers.length ∧ 0 ≠ 1) ∧
      (b.resolve d.buffers).checks.ids.Perm [⟨0, 0⟩, ⟨1, 3⟩] ∧
      (b.resolve d.buffers).checks.size = 2 := by
  intro b t u v d
  have sound : d.issues = [] := by decide
  obtain ⟨channels, sources, -, -, kept, count⟩ := resolve_sound sound b
  have read : .buffer 0 0 ∈ (b.resolve d.buffers).ops 1 :=
    List.mem_cons_of_mem _ List.mem_cons_self
  refine ⟨sound, channels 1, sources 1 0 0 read, ?_, ?_⟩
  · have loads : (b.resolve d.buffers).loads = [⟨0, 0⟩, ⟨1, 3⟩] := by decide +kernel
    rwa [loads] at kept
  · rw [count]
    decide +kernel

end Binder

end ShaderChannels
