import ShaderChannels.Report.Sink

/-!
# Exchanges

A collecting sink and a sink that sends to a channel side by side, and everything that can be done
with them.  The channel can be received from until its receiver is dropped.
-/

namespace ShaderChannels

/-- A collecting sink and a channel. -/
structure Exchange (γ : Type) where
  /-- What the collecting sink holds. -/
  collected : List Report
  channel : γ
deriving DecidableEq, Inhabited

namespace Exchange

/-- What can be done. -/
inductive Step where
  /-- Send a report to the collecting sink. -/
  | collect (r : Report)
  /-- Send a report to the channel. -/
  | send (r : Report)
  /-- Show what the collecting sink holds. -/
  | reports
  /-- Take out all that the collecting sink holds. -/
  | take
  /-- Receive the next report from the channel. -/
  | receive
  /-- Drop the receiver of the channel. -/
  | close
deriving DecidableEq

/-- What a step shows. -/
inductive Answer where
  | sent (accepted : Bool)
  | reports (rs : List Report)
  | received (r : Option Report)
  | closed
deriving DecidableEq

section Run

variable {γ : Type} (c : ReportChannel γ)

/-- Performs one step. -/
def perform (x : Exchange γ) : Step → Answer × Exchange γ
  | .collect r =>
    let (accepted, collected) := Sink.collecting.offer x.collected r
    (.sent accepted, { x with collected })
  | .send r =>
    let (accepted, channel) := c.sink.offer x.channel r
    (.sent accepted, { x with channel })
  | .reports => (.reports x.collected, x)
  | .take => (.reports x.collected, { x with collected := [] })
  | .receive =>
    let (r, channel) := c.receive x.channel
    (.received r, { x with channel })
  | .close => (.closed, { x with channel := c.close x.channel })

@[simp] theorem perform_send (x : Exchange γ) (r : Report) :
    x.perform c (.send r) =
      (.sent (c.send x.channel r).1, { x with channel := (c.send x.channel r).2 }) := rfl

@[simp] theorem perform_receive (x : Exchange γ) :
    x.perform c .receive =
      (.received (c.receive x.channel).1, { x with channel := (c.receive x.channel).2 }) := rfl

/-- Performs steps one after the other and keeps the answers. -/
def runOn (x : Exchange γ) : List Step → List Answer
  | [] => []
  | s :: ss => (x.perform c s).1 :: (x.perform c s).2.runOn ss

/-- Every step answers. -/
@[simp] theorem length_runOn (x : Exchange γ) (ss : List Step) :
    (x.runOn c ss).length = ss.length := by
  induction ss generalizing x with
  | nil => rfl
  | cons s ss ih => simp [runOn, ih]

end Run

/-- Nothing collected, and an empty queue. -/
instance : EmptyCollection (Exchange ReportQueue) := ⟨⟨[], {}⟩⟩

/-- Performs steps with a queue as the channel. -/
def run (x : Exchange ReportQueue) (ss : List Step) : List Answer := x.runOn ReportQueue.channel ss

end Exchange

end ShaderChannels
