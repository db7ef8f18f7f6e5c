import ShaderChannels.Report.Diagnostic

/-!
# Sinks

A sink takes reports to whoever reads them.  It may refuse one, and what it does with the next may
depend on all that it was offered before; so a sink is a machine whose state is a value.  A channel
has two ends, and one of them can be made a sink.
-/

namespace ShaderChannels

/-- A machine that is offered reports and accepts or refuses each. -/
structure Sink (σ : Type) where
  /-- Whether a report is accepted, and the state after it. -/
  offer : σ → Report → Bool × σ

namespace Sink

/-- Why a sink refuses. -/
def disconnected : String := "diagnostic sink is disconnected"

variable {σ : Type}

/-- Offers reports one after the other, and counts those that are accepted. -/
def offerAll (sink : Sink σ) (s : σ) : List Report → Nat × σ
  | [] => (0, s)
  | r :: rs =>
    let (accepted, s) := sink.offer s r
    let (n, s) := sink.offerAll s rs
    (if accepted then n + 1 else n, s)

/-- Keeps every report, in order. -/
def collecting : Sink (List Report) where
  offer s r := (true, s ++ [r])

/-- A sink that counts what it is offered and accepts by that count. -/
def gated (accepts : Nat → Bool) : Sink (Nat × List Report) where
  offer s r := if accepts s.1 then (true, s.1 + 1, s.2 ++ [r]) else (false, s.1 + 1, s.2)

@[simp] theorem offerAll_nil (sink : Sink σ) (s : σ) : sink.offerAll s [] = (0, s) := rfl

theorem offerAll_cons (sink : Sink σ) (s : σ) (r : Report) (rs : List Report) :
    sink.offerAll s (r :: rs) =
      let later := sink.offerAll (sink.offer s r).2 rs
      (if (sink.offer s r).1 then later.1 + 1 else later.1, later.2) := rfl

@[simp] theorem collecting_offer (s : List Report) (r : Report) :
    collecting.offer s r = (true, s ++ [r]) := rfl

/-- A collecting sink accepts everything and keeps it in order. -/
theorem offerAll_collecting (s rs : List Report) :
    collecting.offerAll s rs = (rs.length, s ++ rs) := by
  induction rs generalizing s with
  | nil => simp
  | cons r rs ih => simp [offerAll, ih]

end Sink

/-- A channel for reports, with the end of the sender and the end of the receiver. -/
structure ReportChannel (γ : Type) where
  /-- Whether a report can be sent, and the state after it. -/
  send : γ → Report → Bool × γ
  /-- The next report that waits, if any, and the state without it. -/
  receive : γ → Option Report × γ
  /-- Drops the receiver. -/
  close : γ → γ

/-- Sends every report, and refuses those that cannot be sent. -/
def ReportChannel.sink {γ : Type} (c : ReportChannel γ) : Sink γ where
  offer := c.send

/-- A queue from a sender to a receiver. -/
structure ReportQueue where
  /-- Sent and not yet received. -/
  waiting : List Report := []
  /-- Whether the receiver is there. -/
  isOpen : Bool := true
deriving DecidableEq, Inhabited

namespace ReportQueue

/-- A channel without bound, which gives its reports out in the order they came in. -/
def channel : ReportChannel ReportQueue where
  send q r := if q.isOpen then (true, { q with waiting := q.waiting ++ [r] }) else (false, q)
  receive q :=
    if q.isOpen then (q.waiting.head?, { q with waiting := q.waiting.tail }) else (none, q)
  close _ := ⟨[], false⟩

/-- Puts reports on a queue as long as there is a receiver. -/
def sink : Sink ReportQueue := channel.sink

end ReportQueue

end ShaderChannels
