import Mathlib.Data.List.Nodup
import Mathlib.Tactic.MkIffOfInductiveProp
import ShaderChannels.Document.Issue

/-!
# Sound documents

A document is sound if a runtime can honour all that it asks for: there are buffers, channels exist
and are bound by one input each, and buffers that are read exist and are not the one that reads
them.  `Document.issues_eq_nil_iff` says that the documents without issues are the sound ones.

Whether a channel is taken is looked up among the channels of earlier inputs, so the lemma about
inputs is told for any channels that are taken before the first of them.
-/

namespace ShaderChannels

/-- An input of buffer number `index` among `count` is sound. -/
@[mk_iff]
structure Texture.Sound (count index : Nat) (t : Texture) : Prop where
  /-- Its channel exists. -/
  channel_lt : t.channel < channelLimit
  /-- The buffer it reads exists and is another one. -/
  reference : ∀ i, t.bufferIndex = some i → i < count ∧ i ≠ index

/-- Buffer number `index` among `count` is sound. -/
@[mk_iff]
structure Buffer.Sound (count index : Nat) (b : Buffer) : Prop where
  inputs : ∀ t ∈ b.textures, t.Sound count index
  /-- No two inputs are bound to one channel. -/
  channels : (b.textures.map Texture.channel).Nodup
  /-- The channel of the previous frame exists, if that is read. -/
  feedback : b.usesSelf → b.selfChannel < channelLimit

/-- A document is sound. -/
@[mk_iff]
structure Document.Sound (d : Document) : Prop where
  nonempty : d.buffers ≠ []
  buffers : ∀ (i : Nat) (b : Buffer), d.buffers[i]? = some b → b.Sound d.buffers.length i

variable {count index : Nat} {name : String}

theorem ite_singleton_eq_nil_iff {α : Type} {p : Prop} [Decidable p] {a : α} :
    (if p then [a] else []) = [] ↔ ¬ p := by
  simp

theorem Texture.issues_eq_nil_iff (t : Texture) (taken : List Channel) :
    t.issues count index name taken = [] ↔ t.Sound count index ∧ t.channel ∉ taken := by
  rw [issues, List.append_eq_nil_iff, List.append_eq_nil_iff, ite_singleton_eq_nil_iff,
    ite_singleton_eq_nil_iff, UInt8.not_le, sound_iff,
    and_right_comm]
  refine and_congr_left fun _ ↦ and_congr_right fun _ ↦ ?_
  cases t.bufferIndex with
  | none => simp
  | some i =>
    simp only [Option.some.injEq, forall_eq']
    split_ifs with outside own
    · simp [Nat.not_lt_of_le outside]
    · simp [own]
    · simp [Nat.lt_of_not_le outside, own]

namespace Buffer

/-- Inputs have no issues if each is sound, and no two of them, nor one of them and one that comes
before them, are bound to one channel. -/
theorem inputIssues_eq_nil_iff (taken : List Channel) (ts : List Texture) :
    inputIssues count index name taken ts = [] ↔
      (∀ t ∈ ts, t.Sound count index) ∧ (ts.map Texture.channel).Nodup ∧
        ∀ t ∈ ts, t.channel ∉ taken := by
  induction ts generalizing taken with
  | nil => simp [inputIssues]
  | cons t ts ih =>
    rw [inputIssues, List.append_eq_nil_iff, Texture.issues_eq_nil_iff, ih, List.map_cons,
      List.nodup_cons, List.forall_mem_cons, List.forall_mem_cons]
    simp only [List.mem_cons, not_or, forall_and, List.mem_map, not_exists, not_and]
    constructor
    · rintro ⟨⟨sound, free⟩, later, distinct, ne, rest⟩
      exact ⟨⟨sound, later⟩, ⟨ne, distinct⟩, free, rest⟩
    · rintro ⟨⟨sound, later⟩, ⟨ne, distinct⟩, free, rest⟩
      exact ⟨⟨sound, free⟩, later, distinct, ne, rest⟩

theorem issues_eq_nil_iff (b : Buffer) : b.issues count index = [] ↔ b.Sound count index := by
  rw [issues, List.append_eq_nil_iff, inputIssues_eq_nil_iff, ite_singleton_eq_nil_iff, not_and,
    UInt8.not_le, sound_iff, and_assoc]
  refine and_congr_right fun _ ↦ and_congr_left fun _ ↦ ?_
  exact and_iff_left fun t _ ↦ List.not_mem_nil

end Buffer

/-- The documents without issues are the sound ones. -/
theorem Document.issues_eq_nil_iff (d : Document) : d.issues = [] ↔ d.Sound := by
  rw [issues, List.append_eq_nil_iff, ite_singleton_eq_nil_iff, List.flatMap_eq_nil_iff,
    List.isEmpty_iff, sound_iff]
  refine and_congr_right fun _ ↦ ?_
  simp only [Prod.forall, List.mem_zipIdx_iff_getElem?, Buffer.issues_eq_nil_iff]
  exact forall_comm

end ShaderChannels
