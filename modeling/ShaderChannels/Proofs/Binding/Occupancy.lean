import ShaderChannels.Proofs.Binding.Waiting
import ShaderChannels.Proofs.Document.Sound

/-!
# Channels of sound documents

Issues are looked for without binding anything, by comparing the channels of the inputs of a buffer
with one another.  That leaves out the channel of its previous frame, which is the first one unless
another is asked for.  So a document without issues may still fill a channel twice, and this is the
only way in which it can.

* `Binder.pairwise_ops` — of two operations of a sound buffer on one channel, the later one reads
  the previous frame.
* `Binder.exclusive_ops_iff` — the operations of a sound document fill each channel once exactly if
  no input with an operation is on the channel of the previous frame.
-/

namespace ShaderChannels

/-- No two of these operations fill the same channel. -/
def Op.Exclusive (ops : List Op) : Prop :=
  ops.Pairwise fun o p ↦ ∀ c, o.channel? = some c → p.channel? ≠ some c

namespace Binder

variable {b : Binder} {buffers : List Buffer} {buffer : Buffer} {t : Texture} {o p : Op} {i : Nat}
  {c : Channel}

/-! ## Operations of a buffer -/

theorem mem_ownOps_iff :
    o ∈ b.ownOps buffer ↔ buffer.usesSelf ∧ o = .selfFeedback buffer.selfChannel ∨
      buffer.usesKeyboard ∧ o = .keyboard b.keyboard := by
  rw [ownOps, List.mem_append, List.mem_ite_nil_right, List.mem_ite_nil_right,
    List.mem_singleton, List.mem_singleton]

/-- Of the operations that come after those of the inputs, only the previous frame fills a
channel. -/
theorem eq_selfFeedback_of_mem_ownOps (h : o ∈ b.ownOps buffer) (hc : o.channel? = some c) :
    buffer.usesSelf ∧ c = buffer.selfChannel ∧ o = .selfFeedback c := by
  rcases mem_ownOps_iff.mp h with ⟨own, rfl⟩ | ⟨-, rfl⟩
  · obtain rfl : buffer.selfChannel = c := Option.some.inj hc
    exact ⟨own, rfl, rfl⟩
  · exact nomatch hc

/-- The operations of the inputs of a buffer. -/
def inputOps (b : Binder) (buffer : Buffer) : List Op :=
  (b.contributions buffer).filterMap Contribution.op?

theorem inputOps_eq (b : Binder) (i : Nat) (buffer : Buffer) :
    b.inputOps buffer = buffer.textures.filterMap fun t ↦ (b.outcome i buffer t).op? := by
  rw [inputOps, contributions_eq b i, outcomes, List.filterMap_map, List.filterMap_map]
  simp only [Function.comp_def, Contribution.op?_ofOutcome]

theorem mem_inputOps_iff :
    o ∈ b.inputOps buffer ↔ ∃ t ∈ buffer.textures, Contributes b buffer t (.op o) := by
  rw [inputOps_eq b 0, List.mem_filterMap]
  exact exists_congr fun t ↦ and_congr_right fun _ ↦ (contributes_op_iff 0).symm

/-- The operations of a buffer are those of its inputs and its own. -/
theorem mem_ops_resolveBuffer_iff :
    o ∈ (b.resolveBuffer i buffer).ops ↔
      (∃ t ∈ buffer.textures, Contributes b buffer t (.op o)) ∨ o ∈ b.ownOps buffer := by
  rw [← mem_inputOps_iff, ← List.mem_append, resolveBuffer_eq, opsOf, List.append_assoc]
  rfl

theorem mem_ops_resolve_iff :
    o ∈ (b.resolve buffers).ops i ↔ ∃ buffer, buffers[i]? = some buffer ∧
      ((∃ t ∈ buffer.textures, Contributes b buffer t (.op o)) ∨ o ∈ b.ownOps buffer) := by
  rw [Resolution.ops, getElem?_buffers_resolve]
  cases buffers[i]? with
  | none => simp
  | some buffer => simp [mem_ops_resolveBuffer_iff]

/-! ## Channels filled once -/

/-- Inputs on different channels have operations on different channels. -/
theorem exclusive_inputOps (h : (buffer.textures.map Texture.channel).Nodup) :
    Op.Exclusive (b.inputOps buffer) := by
  rw [Op.Exclusive, inputOps_eq b 0, List.pairwise_filterMap]
  refine (List.pairwise_map.mp h).imp ?_
  intro t u ne o ho p hp c hc same
  rw [((contributes_op_iff 0).mpr ho).channel_eq] at hc
  rw [((contributes_op_iff 0).mpr hp).channel_eq] at same
  exact ne (Option.some.inj (hc.trans same.symm))

/-- The operations of a buffer besides those of its inputs do not fill a channel twice. -/
theorem exclusive_ownOps (b : Binder) (buffer : Buffer) : Op.Exclusive (b.ownOps buffer) := by
  have keyboard : ∀ p ∈ (if buffer.usesKeyboard then [Op.keyboard b.keyboard] else []),
      ∀ c, p.channel? ≠ some c := by
    intro p hp c
    obtain ⟨-, hp⟩ := List.mem_ite_nil_right.mp hp
    rw [List.mem_singleton.mp hp]
    exact nofun
  refine List.pairwise_append.mpr ⟨?_, ?_, fun o _ p hp c _ ↦ keyboard p hp c⟩
  · split <;> simp
  · split <;> simp

/-- Two operations of a buffer can fill one channel only if the later one reads the previous
frame. -/
theorem pairwise_ops (h : buffers[i]? = some buffer)
    (distinct : (buffer.textures.map Texture.channel).Nodup) :
    ((b.resolve buffers).ops i).Pairwise fun o p ↦
      ∀ c, o.channel? = some c → p.channel? = some c → p = .selfFeedback c := by
  rw [ops_resolve h]
  refine List.pairwise_append.mpr ⟨?_, ?_, ?_⟩
  · exact (exclusive_inputOps distinct).imp fun apart c ho hp ↦ absurd hp (apart c ho)
  · exact (exclusive_ownOps b buffer).imp fun apart c ho hp ↦ absurd hp (apart c ho)
  · intro o _ p own c _ hp
    exact (eq_selfFeedback_of_mem_ownOps own hp).2.2

/-- With inputs on different channels, each channel is filled once exactly if no input has an
operation on the channel of the previous frame. -/
theorem exclusive_iff (h : buffers[i]? = some buffer)
    (distinct : (buffer.textures.map Texture.channel).Nodup) :
    Op.Exclusive ((b.resolve buffers).ops i) ↔ (buffer.usesSelf → ∀ t ∈ buffer.textures,
      t.channel = buffer.selfChannel → ∀ o, ¬ Contributes b buffer t (.op o)) := by
  rw [ops_resolve h, Op.Exclusive, List.pairwise_append]
  constructor
  · rintro ⟨-, -, apart⟩ own t ht same o contributes
    refine apart o (mem_inputOps_iff.mpr ⟨t, ht, contributes⟩) (.selfFeedback buffer.selfChannel)
      (mem_ownOps_iff.mpr (.inl ⟨own, rfl⟩)) buffer.selfChannel ?_ rfl
    rw [contributes.channel_eq, same]
  · intro apart
    refine ⟨exclusive_inputOps distinct, exclusive_ownOps b buffer, ?_⟩
    intro o ho p hp c hoc hpc
    obtain ⟨t, ht, contributes⟩ := mem_inputOps_iff.mp ho
    obtain ⟨own, rfl, -⟩ := eq_selfFeedback_of_mem_ownOps hp hpc
    exact apart own t ht (Option.some.inj (contributes.channel_eq.symm.trans hoc)) o contributes

/-- **Channels filled once.**  In a document without issues, two operations of a buffer that fill
one channel are that of an input and the previous frame, and the operations of a buffer fill each
channel once exactly if no input has an operation on the channel of the previous frame that the
buffer reads. -/
theorem exclusive_ops_iff {d : Document} (h : d.issues = []) (b : Binder) (i : Nat)
    (buffer : Buffer) (hb : d.buffers[i]? = some buffer) :
    (((b.resolve d.buffers).ops i).Pairwise fun o p ↦
      ∀ c, o.channel? = some c → p.channel? = some c → p = .selfFeedback c) ∧
    (Op.Exclusive ((b.resolve d.buffers).ops i) ↔ (buffer.usesSelf → ∀ t ∈ buffer.textures,
      t.channel = buffer.selfChannel → ∀ o, ¬ Contributes b buffer t (.op o))) := by
  have sound := (d.issues_eq_nil_iff.mp h).buffers i buffer hb
  exact ⟨pairwise_ops hb sound.channels, exclusive_iff hb sound.channels⟩

/-- An incomplete input on the channel of the previous frame leaves the channel to it. -/
theorem exclusive_ops_incomplete :
    let b : Binder := { host := .ofFiles [] "res://" }
    let t : Texture := { channel := 1, localTexture := some "noise.png", mag := some .linear }
    let u : Texture :=
      { channel := 0, remoteTexture := some "wood.png", mag := some .linear, min := some .linear,
        wrap := some .repeated }
    let buffer : Buffer :=
      { name := "A", textures := [t, u], usesSelf := true, selfChannel := 1 }
    let d : Document := { buffers := [buffer] }
    d.issues = [] ∧ d.buffers[0]? = some buffer ∧ Op.Exclusive ((b.resolve d.buffers).ops 0) := by
  intro b t u buffer d
  have sound : d.issues = [] := by decide
  refine ⟨sound, rfl, (exclusive_ops_iff sound b 0 buffer rfl).2.mpr ?_⟩
  intro _ v hv same o contributes
  obtain rfl | rfl : v = t ∨ v = u := by simpa [buffer] using hv
  · have none : Contributes b buffer t .nothing := .incomplete rfl rfl (.inr (.inl rfl))
    exact nomatch contributes.unique none
  · exact absurd same (by decide)

/-- An image on the first channel, and the previous frame on the channel it has unless another is
asked for: there are no issues, and the channel is filled twice. -/
theorem not_exclusive_feedback :
    let b : Binder := { host := .ofFiles [] "res://" }
    let t : Texture :=
      { channel := 0, localTexture := some "noise.png", mag := some .linear, min := some .linear,
        wrap := some .repeated }
    let d : Document :=
      { buffers := [{ name := "A", file := "a.glsl", textures := [t], usesSelf := true }] }
    d.issues = [] ∧ (b.resolve d.buffers).ops 0 =
        [.file 0 (.resource "res://noise.png") {}, .selfFeedback 0] ∧
      ¬ Op.Exclusive ((b.resolve d.buffers).ops 0) := by
  intro b t d
  have ops : (b.resolve d.buffers).ops 0 =
      [.file 0 (.resource "res://noise.png") {}, .selfFeedback 0] := by
    decide +kernel
  refine ⟨by decide, ops, ?_⟩
  rw [ops]
  intro apart
  exact List.rel_of_pairwise_cons apart (List.mem_singleton_self _) 0 rfl rfl

end Binder

end ShaderChannels
