import ShaderChannels.Binding.Check

/-!
# Resolving bindings

Each texture input of a buffer has one of four outcomes: an operation that loads an image and
leaves a check, an operation that does not, an error, or nothing at all.  A resolution gathers the
outcomes of all inputs: operations by buffer, errors and checks across all buffers.
-/

namespace ShaderChannels

/-- What becomes of a texture input. -/
inductive Outcome where
  /-- An image is bound, and its size is to be checked. -/
  | loads (op : Op) (check : Check)
  /-- A buffer is bound. -/
  | binds (op : Op)
  /-- The input is in error. -/
  | rejected (report : Report)
  /-- The input is incomplete and passed over. -/
  | dropped
deriving DecidableEq

namespace Outcome

/-- The operation of an outcome. -/
def op? : Outcome → Option Op
  | .loads op _ | .binds op => some op
  | .rejected _ | .dropped => none

/-- The error of an outcome. -/
def report? : Outcome → Option Report
  | .rejected r => some r
  | .loads .. | .binds _ | .dropped => none

/-- The check of an outcome. -/
def check? : Outcome → Option Check
  | .loads _ c => some c
  | .binds _ | .rejected _ | .dropped => none

end Outcome

/-- The operations of a buffer. -/
structure ResolvedBuffer where
  index : Nat
  ops : List Op
deriving DecidableEq, Inhabited

/-- What binding the textures of a shader comes to. -/
structure Resolution where
  buffers : List ResolvedBuffer
  /-- Errors, in order of the inputs. -/
  reports : List Report
  /-- Checks that wait for images. -/
  checks : Checks
deriving DecidableEq

/-- What binding depends on besides the buffers. -/
structure Binder where
  host : Host
  /-- The texture all buffers read the keyboard from. -/
  keyboard : Keyboard := {}
  /-- Whether local paths are kept as written, with no reference from the host. -/
  standalone : Bool := false

namespace Binder

/-- A cube map has no path or not exactly one wildcard in it. -/
def patternError : String :=
  "Only local paths with a single wildcard \"\x7b\x7d\" are supported for the CubeMap texture type."

/-- A cube map lacks files in every convention. -/
def facesError : String := "Could not find all cubemap files for the given path with wildcard."

/-- Where a local image is loaded from. -/
def locate (b : Binder) (p : String) : Location :=
  if b.standalone then .path p else .resource (b.host.reference p)

/-- The error of a cube map, told at the line of its type. -/
def reject (file : String) (t : Texture) (message : String) : Outcome :=
  .rejected ⟨.error, ⟨file, [⟨t.typeLine.getD 0, message⟩]⟩⟩

/-- What becomes of a texture input of buffer number `index`. -/
def outcome (b : Binder) (index : Nat) (buffer : Buffer) (t : Texture) : Outcome :=
  let file := t.fileIn buffer
  let check : Check := ⟨⟨index, t.channel⟩, file, t.settingLines⟩
  match t.source with
  | .cubeMap pattern =>
    match pattern.filter CubeMap.hasSingleWildcard with
    | none => reject file t patternError
    | some pattern =>
      match CubeMap.discover b.host pattern with
      | none => reject file t facesError
      | some faces => .loads (.cubeMap t.channel (faces.map b.locate) t.sampler) check
  | .buffer source => .binds (.buffer t.channel source)
  | .localFile p => .loads (.file t.channel (b.locate p) t.sampler) check
  | .remoteUrl u => .loads (.remote t.channel u t.sampler) check
  | .incomplete => .dropped

/-- What becomes of the texture inputs of buffer number `index`. -/
def outcomes (b : Binder) (index : Nat) (buffer : Buffer) : List Outcome :=
  buffer.textures.map (b.outcome index buffer)

/-- The operations of buffer number `index`: its inputs, then its own previous frame, then the
keyboard. -/
def resolveBuffer (b : Binder) (index : Nat) (buffer : Buffer) : ResolvedBuffer where
  index := index
  ops := (b.outcomes index buffer).filterMap Outcome.op? ++
    (if buffer.usesSelf then [.selfFeedback buffer.selfChannel] else []) ++
    (if buffer.usesKeyboard then [.keyboard b.keyboard] else [])

/-- Binds the textures of all buffers. -/
def resolve (b : Binder) (buffers : List Buffer) : Resolution :=
  let outcomes := buffers.zipIdx.flatMap fun (buffer, i) ↦ b.outcomes i buffer
  { buffers := buffers.zipIdx.map fun (buffer, i) ↦ b.resolveBuffer i buffer
    reports := outcomes.filterMap Outcome.report?
    checks := (outcomes.filterMap Outcome.check?).foldl Checks.register Checks.empty }

end Binder

namespace Resolution

/-- The operations of a buffer; none if there is no such buffer. -/
def ops (r : Resolution) (buffer : Nat) : List Op :=
  match r.buffers[buffer]? with
  | some b => b.ops
  | none => []

/-- Whether any input is in error. -/
def hasErrors (r : Resolution) : Bool := r.reports.any (·.severity == .error)

/-- Offers every report to a sink and counts those it accepts. -/
def publish {σ : Type} (r : Resolution) (sink : Sink σ) (s : σ) : Nat × σ :=
  sink.offerAll s r.reports

end Resolution

end ShaderChannels
