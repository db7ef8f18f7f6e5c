import ShaderChannels.Binding.Resolve

/-!
# Sessions

What a runtime does with a resolution while images load: it looks checks up, takes them out,
completes them at once or later, and publishes the errors.  A session holds the checks that wait
and those that were taken out; a check that is completed is in neither place.
-/

namespace ShaderChannels

/-- A resolution in use. -/
structure Session where
  resolution : Resolution
  /-- Checks that wait. -/
  pending : Checks
  /-- What was taken out, in order; nothing where there was no check, or where it is completed. -/
  held : List (Option Check)
deriving DecidableEq

namespace Session

/-- A resolution before its use. -/
def ofResolution (r : Resolution) : Session := ⟨r, r.checks, []⟩

/-- The check taken out at a place. -/
def heldAt (x : Session) (i : Nat) : Option Check := x.held[i]?.join

/-- What can be done. -/
inductive Step where
  /-- List the bindings that wait. -/
  | ids
  /-- Show the operations of a buffer. -/
  | ops (buffer : Nat)
  /-- Look a check up. -/
  | get (id : BindingId)
  /-- Take a check out and hold it. -/
  | take (id : BindingId)
  /-- Show the warning that a size would call for. -/
  | warning (id : BindingId) (width height : UInt32)
  /-- The same for a check that is held. -/
  | heldWarning (i : Nat) (width height : UInt32)
  /-- Complete a check. -/
  | complete (id : BindingId) (width height : UInt32)
  /-- Complete a check that is held. -/
  | heldComplete (i : Nat) (width height : UInt32)
  /-- Offer all errors to the sink. -/
  | publish
deriving DecidableEq

/-- What a step shows. -/
inductive Answer where
  | ids (ids : List BindingId)
  | ops (ops : List Op)
  | check (c : Option Check)
  | warning (b : Option Batch)
  | size (s : Option ChannelSize)
  | published (accepted : Nat)
deriving DecidableEq

variable {σ : Type}

/-- Performs one step, with a sink for what is reported on the way. -/
def perform (sink : Sink σ) (x : Session) (s : σ) : Step → Answer × Session × σ
  | .ids => (.ids x.pending.ids, x, s)
  | .ops buffer => (.ops (x.resolution.ops buffer), x, s)
  | .get id => (.check (x.pending.get? id), x, s)
  | .take id =>
    let (c, pending) := x.pending.take id
    (.check c, { x with pending, held := x.held ++ [c] }, s)
  | .warning id w h => (.warning ((x.pending.get? id).bind (·.warning? w h)), x, s)
  | .heldWarning i w h => (.warning ((x.heldAt i).bind (·.warning? w h)), x, s)
  | .complete id w h =>
    let (size, pending, s) := x.pending.complete id w h sink s
    (.size size, { x with pending }, s)
  | .heldComplete i w h =>
    match x.heldAt i with
    | none => (.size none, x, s)
    | some c =>
      let (size, s) := c.complete w h sink s
      (.size (some size), { x with held := x.held.set i none }, s)
  | .publish =>
    let (n, s) := x.resolution.publish sink s
    (.published n, x, s)

/-- Performs steps one after the other on one sink and keeps the answers. -/
def run (sink : Sink σ) (x : Session) (s : σ) : List Step → List Answer × Session × σ
  | [] => ([], x, s)
  | step :: steps =>
    let (a, x, s) := x.perform sink s step
    let (as, x, s) := run sink x s steps
    (a :: as, x, s)

@[simp] theorem run_nil (sink : Sink σ) (x : Session) (s : σ) : x.run sink s [] = ([], x, s) := rfl

end Session

end ShaderChannels
