import ShaderChannels.Binding.Probe
import ShaderChannels.Proofs.Binding.Contribution
import ShaderChannels.Proofs.Binding.Registry

/-!
# Suppliers of images

Several inputs may load an image into one channel.  The last of them supplies the channel: its
operation is the last one for the channel, and its check is the one that waits.  Operations are
appended to a list and checks replace one another, so these are two facts, not one:

* `Binder.boundOp?_resolve` — the last operation that loads an image for a binding;
* `Binder.get?_checks_resolve` — the check that waits for the image.

Both are read off the inputs of the channel in the same way, from the last one to the first.
-/

namespace ShaderChannels

/-- The inputs of a channel, in order of declaration. -/
def Buffer.inputs (buffer : Buffer) (c : Channel) : List Texture :=
  buffer.textures.filter (·.channel == c)

namespace Binder

/-! ## Inputs with an image -/

/-- `Loads b buffer t o`: the input `t` of `buffer` has an image, which `o` loads. -/
def Loads (b : Binder) (buffer : Buffer) (t : Texture) (o : Op) : Prop :=
  Contributes b buffer t (.op o) ∧ o.loadsImage

/-- The operation that loads the image of an input, if it has one. -/
def loading? (b : Binder) (buffer : Buffer) (t : Texture) : Option Op :=
  (b.outcome 0 buffer t).op?.filter Op.loadsImage

variable {b : Binder} {buffer : Buffer} {t : Texture} {o : Op}

/-- An outcome adds the operation that it holds. -/
theorem contributes_op_iff (i : Nat) :
    Contributes b buffer t (.op o) ↔ (b.outcome i buffer t).op? = some o := by
  rw [contributes_iff i]
  cases b.outcome i buffer t <;> simp [Contribution.ofOutcome, Outcome.op?, eq_comm]

theorem loading?_eq_some_iff : b.loading? buffer t = some o ↔ Loads b buffer t o := by
  rw [loading?, Option.filter_eq_some_iff, ← contributes_op_iff]
  rfl

theorem loading?_eq_none_iff : b.loading? buffer t = none ↔ ∀ o, ¬ Loads b buffer t o := by
  rw [Option.eq_none_iff_forall_ne_some]
  exact forall_congr' fun o ↦ not_congr loading?_eq_some_iff

/-- Whether an outcome loads an image does not depend on the position of the buffer. -/
theorem filter_op?_outcome (b : Binder) (i : Nat) (buffer : Buffer) (t : Texture) :
    (b.outcome i buffer t).op?.filter Op.loadsImage = b.loading? buffer t := by
  ext o
  rw [loading?_eq_some_iff, Option.filter_eq_some_iff, ← contributes_op_iff]
  rfl

/-- An input has a check if it has an image: filed under the input's own file or else under that of
its buffer, with the lines of its settings. -/
theorem check?_outcome (b : Binder) (i : Nat) (buffer : Buffer) (t : Texture) :
    (b.outcome i buffer t).check? =
      (b.loading? buffer t).map fun _ ↦ ⟨⟨i, t.channel⟩, t.fileIn buffer, t.settingLines⟩ := by
  rw [← filter_op?_outcome b i, outcome]
  cases t.source with
  | cubeMap pattern =>
    dsimp only
    cases pattern.filter CubeMap.hasSingleWildcard with
    | none => rfl
    | some pattern =>
      dsimp only
      cases CubeMap.discover b.host pattern <;> rfl
  | buffer source => rfl
  | localFile p => rfl
  | remoteUrl u => rfl
  | incomplete => rfl

/-! ## Operations and checks of one channel -/

/-- The operations that load an image for a channel are those of its inputs, in order. -/
theorem filter_ops_resolveBuffer (b : Binder) (i : Nat) (buffer : Buffer) (c : Channel) :
    (b.resolveBuffer i buffer).ops.filter (fun o ↦ o.loadsImage && o.channel? == some c) =
      (buffer.inputs c).filterMap (b.loading? buffer) := by
  have self : (if buffer.usesSelf then [Op.selfFeedback buffer.selfChannel] else []).filter
      (fun o ↦ o.loadsImage && o.channel? == some c) = [] := by
    split <;> rfl
  have keys : (if buffer.usesKeyboard then [Op.keyboard b.keyboard] else []).filter
      (fun o ↦ o.loadsImage && o.channel? == some c) = [] := by
    split <;> rfl
  rw [resolveBuffer, List.filter_append, List.filter_append, self, keys, List.append_nil,
    List.append_nil, outcomes, List.filterMap_map, List.filter_filterMap, Buffer.inputs,
    List.filterMap_filter]
  refine List.filterMap_congr fun t _ ↦ ?_
  rw [← filter_op?_outcome b i]
  cases h : (b.outcome i buffer t).op? with
  | none => simp [h]
  | some o =>
    have channel := ((contributes_op_iff i).mpr h).channel_eq
    by_cases hc : t.channel = c <;> simp [h, channel, hc, Option.filter_some]

/-- The check that the image of an input leaves for a binding. -/
def checkFor? (b : Binder) (id : BindingId) (buffer : Buffer) (t : Texture) : Option Check :=
  (b.loading? buffer t).map fun _ ↦ ⟨id, t.fileIn buffer, t.settingLines⟩

/-- The check of an outcome is for a binding if buffer and channel are. -/
theorem filter_check?_outcome (b : Binder) (i : Nat) (buffer : Buffer) (t : Texture)
    (id : BindingId) :
    (b.outcome i buffer t).check?.filter (·.id == id) =
      if i = id.buffer ∧ t.channel = id.channel then b.checkFor? id buffer t else none := by
  obtain ⟨j, c⟩ := id
  rw [check?_outcome, checkFor?]
  cases b.loading? buffer t with
  | none => exact (ite_self none).symm
  | some o =>
    rw [Option.map_some, Option.map_some, Option.filter_some]
    by_cases h : i = j ∧ t.channel = c
    · obtain ⟨rfl, rfl⟩ := h
      simp
    · simp [h]

/-- The checks for a channel are those of its inputs, in order, if the buffer is the right one. -/
theorem filter_checks_outcomes (b : Binder) (i : Nat) (buffer : Buffer) (id : BindingId) :
    ((b.outcomes i buffer).filterMap Outcome.check?).filter (·.id == id) =
      if i = id.buffer then (buffer.inputs id.channel).filterMap (b.checkFor? id buffer)
      else [] := by
  rw [outcomes, List.filterMap_map, List.filter_filterMap]
  simp only [Function.comp_def, filter_check?_outcome]
  by_cases hi : i = id.buffer
  · rw [if_pos hi, Buffer.inputs, List.filterMap_filter]
    refine List.filterMap_congr fun t _ ↦ ?_
    simp only [hi, true_and, beq_iff_eq]
  · rw [if_neg hi, List.filterMap_eq_nil_iff]
    intro t _
    exact if_neg fun h ↦ hi h.1

/-- Only one position contributes to a list. -/
theorem flatMap_zipIdx_ite {α β : Type} (f : α → List β) (l : List α) (n k : Nat) :
    (l.zipIdx k).flatMap (fun p ↦ if p.2 = k + n then f p.1 else []) = l[n]?.elim [] f := by
  induction l generalizing n k with
  | nil => rfl
  | cons a l ih =>
    rw [List.zipIdx_cons, List.flatMap_cons]
    cases n with
    | zero =>
      have rest : (l.zipIdx (k + 1)).flatMap (fun p ↦ if p.2 = k + 0 then f p.1 else []) = [] := by
        rw [List.flatMap_eq_nil_iff]
        rintro ⟨a, i⟩ h
        have := List.le_snd_of_mem_zipIdx h
        exact if_neg (by dsimp only at *; omega)
      rw [rest, List.append_nil]
      exact if_pos rfl
    | succ n =>
      have later : k + (n + 1) = k + 1 + n := by omega
      rw [later, ih, if_neg (by omega)]
      rfl

/-- The checks for a binding, across all buffers. -/
theorem filter_checks_resolve (b : Binder) (buffers : List Buffer) (id : BindingId) :
    ((b.allOutcomes buffers).filterMap Outcome.check?).filter (·.id == id) =
      buffers[id.buffer]?.elim [] fun buffer ↦
        (buffer.inputs id.channel).filterMap (b.checkFor? id buffer) := by
  rw [allOutcomes, List.filterMap_flatMap, List.filter_flatMap]
  simp only [filter_checks_outcomes]
  have := flatMap_zipIdx_ite (fun buffer ↦
    (buffer.inputs id.channel).filterMap (b.checkFor? id buffer)) buffers id.buffer 0
  simpa using this

/-! ## Resolutions -/

/-- The last operation that loads an image for a binding. -/
theorem boundOp?_resolve (b : Binder) (buffers : List Buffer) (id : BindingId) :
    Probe.boundOp? (b.resolve buffers) id =
      buffers[id.buffer]?.bind fun buffer ↦
        (buffer.inputs id.channel).reverse.findSome? (b.loading? buffer) := by
  rw [Probe.boundOp?, ← List.getLast?_filter, Resolution.ops, getElem?_buffers_resolve]
  cases buffers[id.buffer]? with
  | none => rfl
  | some buffer =>
    dsimp only [Option.map_some, Option.bind_some]
    rw [filter_ops_resolveBuffer, List.getLast?_filterMap]

/-- The check that waits for the image of a binding. -/
theorem get?_checks_resolve (b : Binder) (buffers : List Buffer) (id : BindingId) :
    (b.resolve buffers).checks.get? id =
      buffers[id.buffer]?.bind fun buffer ↦
        (buffer.inputs id.channel).reverse.findSome? (b.checkFor? id buffer) := by
  rw [checks_eq, Checks.get?_foldl_register, Checks.get?_empty, Option.or_none,
    ← List.getLast?_filter, filter_checks_resolve]
  cases buffers[id.buffer]? with
  | none => rfl
  | some buffer => exact List.getLast?_filterMap

/-! ## Suppliers -/

/-- What is found first from the end of a list: nothing is found after it. -/
theorem findSome?_reverse_eq_some_iff {α β : Type} {f : α → Option β} {l : List α} {y : β} :
    l.reverse.findSome? f = some y ↔
      ∃ before x after, l = before ++ x :: after ∧ f x = some y ∧ ∀ z ∈ after, f z = none := by
  rw [List.findSome?_eq_some_iff]
  constructor
  · rintro ⟨after, x, before, cut, found, unfit⟩
    refine ⟨before.reverse, x, after.reverse, ?_, found, ?_⟩
    · rw [← List.reverse_reverse l, cut]
      simp
    · exact fun z hz ↦ unfit z (List.mem_reverse.mp hz)
  · rintro ⟨before, x, after, rfl, found, unfit⟩
    refine ⟨after.reverse, x, before.reverse, by simp, found, ?_⟩
    exact fun z hz ↦ unfit z (List.mem_reverse.mp hz)

/-- `Supplier b buffers id buffer t o after`: the image bound to `id` is that of the input `t` of
`buffer`, which `o` loads.  It is the last image of its channel, although inputs of other kinds may
come `after` it. -/
structure Supplier (b : Binder) (buffers : List Buffer) (id : BindingId) (buffer : Buffer)
    (t : Texture) (o : Op) (after : List Texture) : Prop where
  buffer_eq : buffers[id.buffer]? = some buffer
  declared : ∃ before, buffer.inputs id.channel = before ++ t :: after
  loads : Loads b buffer t o
  last : ∀ u ∈ after, ∀ o', ¬ Loads b buffer u o'

variable {buffers : List Buffer} {id : BindingId} {after : List Texture}

/-- The supplier is found from the end of the inputs, whatever is told of it. -/
theorem exists_supplier_iff {β : Type} (g : Buffer → Texture → Op → β) (y : β) :
    (buffers[id.buffer]?.bind fun buffer ↦ (buffer.inputs id.channel).reverse.findSome? fun t ↦
        (b.loading? buffer t).map (g buffer t)) = some y ↔
      ∃ buffer t o after, Supplier b buffers id buffer t o after ∧ g buffer t o = y := by
  simp only [Option.bind_eq_some_iff, findSome?_reverse_eq_some_iff, Option.map_eq_some_iff,
    Option.map_eq_none_iff, loading?_eq_some_iff, loading?_eq_none_iff]
  constructor
  · rintro ⟨buffer, hb, before, t, after, cut, ⟨o, loads, eq⟩, last⟩
    exact ⟨buffer, t, o, after, ⟨hb, ⟨before, cut⟩, loads, last⟩, eq⟩
  · rintro ⟨buffer, t, o, after, ⟨hb, ⟨before, cut⟩, loads, last⟩, eq⟩
    exact ⟨buffer, hb, before, t, after, cut, ⟨o, loads, eq⟩, last⟩

/-- The last operation that loads an image for a binding is that of its supplier. -/
theorem boundOp?_eq_some_iff :
    Probe.boundOp? (b.resolve buffers) id = some o ↔
      ∃ buffer t after, Supplier b buffers id buffer t o after := by
  rw [boundOp?_resolve]
  simpa using exists_supplier_iff (fun _ _ o ↦ o) o

/-- A binding has one supplier. -/
theorem Supplier.unique {buffer' : Buffer} {t' : Texture} {o' : Op} {after' : List Texture}
    (h : Supplier b buffers id buffer t o after) (h' : Supplier b buffers id buffer' t' o' after') :
    buffer' = buffer ∧ t' = t ∧ o' = o := by
  have found := (exists_supplier_iff (·, ·, ·) _).mpr ⟨buffer, t, o, after, h, rfl⟩
  have found' := (exists_supplier_iff (·, ·, ·) _).mpr ⟨buffer', t', o', after', h', rfl⟩
  simpa using found'.symm.trans found

/-- The check that waits for a binding is about its supplier. -/
theorem get?_checks_eq_some_iff {c : Check} :
    (b.resolve buffers).checks.get? id = some c ↔
      ∃ buffer t o after, Supplier b buffers id buffer t o after ∧
        ⟨id, t.fileIn buffer, t.settingLines⟩ = c := by
  rw [get?_checks_resolve]
  exact exists_supplier_iff (fun buffer t _ ↦ ⟨id, t.fileIn buffer, t.settingLines⟩) c

end Binder

end ShaderChannels
