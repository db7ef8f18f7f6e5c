import ShaderChannels.Binding.Session
import ShaderChannels.Report.Exchange

/-!
# Order of reports

Whatever is done with a collecting sink and a channel side by side, no report is lost, doubled or
put before another, and neither of the two notices what is done with the other.  A resolution that is
published offers its reports to a sink once each, in order, however the sink answers.

* `ReportChannel.Fifo` — what is relied on of a channel.
* `Exchange.transcript` — the steps that were taken, each with its answer.
* `Exchange.balance_transcript` — if every step balances what comes in and what goes out, so does
  every course of steps.
* `Exchange.stored_transcript` — what was sent to the collecting sink was taken out, or is held.
* `Exchange.accepted_of_open`, `Exchange.accepted_of_closed` — what a channel accepted was received,
  or waits, until it is closed; from then on there is neither.
* `Exchange.filter_transcript` — the steps on one side are answered as without those on the other.
* `Sink.Offers` — offers made to a sink one after the other, each with what it made of it.
* `Exchange.once_in_order` — all of this for every course of steps and every published resolution.
-/

namespace ShaderChannels

/-! ## Channels -/

/-- What is relied on of a channel: it is without bound, and first in, first out.  `waiting` are the
reports of a state that were sent and not yet received, and `isOpen` says that it has its
receiver. -/
structure ReportChannel.Fifo {γ : Type} (c : ReportChannel γ) (waiting : γ → List Report)
    (isOpen : γ → Prop) : Prop where
  /-- With the receiver there, a report can be sent, and waits behind those sent before. -/
  send (q : γ) (r : Report) : isOpen q →
    (c.send q r).1 = true ∧ isOpen (c.send q r).2 ∧ waiting (c.send q r).2 = waiting q ++ [r]
  /-- Without the receiver nothing can be sent. -/
  send_closed (q : γ) (r : Report) : ¬ isOpen q →
    (c.send q r).1 = false ∧ ¬ isOpen (c.send q r).2
  /-- The receiver is given the first report that waits. -/
  receive (q : γ) : isOpen q →
    (c.receive q).1 = (waiting q).head? ∧ isOpen (c.receive q).2 ∧
      waiting (c.receive q).2 = (waiting q).tail
  /-- Without the receiver nothing is given out. -/
  receive_closed (q : γ) : ¬ isOpen q → (c.receive q).1 = none ∧ ¬ isOpen (c.receive q).2
  /-- A receiver that is dropped is there no more. -/
  close (q : γ) : ¬ isOpen (c.close q)

/-- A queue is such a channel. -/
theorem ReportQueue.fifo : channel.Fifo waiting (fun q ↦ q.isOpen) where
  send q r opened := by
    have accepts : channel.send q r = (true, { q with waiting := q.waiting ++ [r] }) :=
      if_pos opened
    rw [accepts]
    exact ⟨rfl, opened, rfl⟩
  send_closed q r closed := by
    have refuses : channel.send q r = (false, q) := if_neg closed
    rw [refuses]
    exact ⟨rfl, closed⟩
  receive q opened := by
    have given : channel.receive q = (q.waiting.head?, { q with waiting := q.waiting.tail }) :=
      if_pos opened
    rw [given]
    exact ⟨rfl, opened, rfl⟩
  receive_closed q closed := by
    have nothing : channel.receive q = (none, q) := if_neg closed
    rw [nothing]
    exact ⟨rfl, closed⟩
  close q := Bool.false_ne_true

namespace Exchange

/-! ## Transcripts -/

/-- One of the two that reports are sent to. -/
inductive Side where
  | collector
  | channel
deriving DecidableEq

/-- The side a step is taken on. -/
def Step.side : Step → Side
  | .collect _ | .reports | .take => .collector
  | .send _ | .receive | .close => .channel

/-- What a step sends to the collecting sink. -/
def stored : Step × Answer → List Report
  | (.collect r, _) => [r]
  | _ => []

/-- What a step takes out of the collecting sink. -/
def taken : Step × Answer → List Report
  | (.take, .reports rs) => rs
  | _ => []

/-- What the channel accepts in a step. -/
def accepted : Step × Answer → List Report
  | (.send r, .sent true) => [r]
  | _ => []

/-- What is received from the channel in a step. -/
def received : Step × Answer → List Report
  | (.receive, .received r) => r.toList
  | _ => []

variable {γ : Type} {c : ReportChannel γ} {x y : Exchange γ}

/-- The steps that were taken, each with its answer. -/
def transcript (c : ReportChannel γ) (x : Exchange γ) (ss : List Step) : List (Step × Answer) :=
  ss.zip (x.runOn c ss)

/-- What is there after the steps. -/
def after (c : ReportChannel γ) (x : Exchange γ) (ss : List Step) : Exchange γ :=
  ss.foldl (fun x s ↦ (x.perform c s).2) x

theorem transcript_cons (s : Step) (ss : List Step) :
    x.transcript c (s :: ss) = (s, (x.perform c s).1) :: (x.perform c s).2.transcript c ss := rfl

theorem after_cons (s : Step) (ss : List Step) :
    x.after c (s :: ss) = (x.perform c s).2.after c ss := rfl

theorem after_append (ss ts : List Step) :
    x.after c (ss ++ ts) = (x.after c ss).after c ts := List.foldl_append

theorem transcript_append (ss ts : List Step) :
    x.transcript c (ss ++ ts) = x.transcript c ss ++ (x.after c ss).transcript c ts := by
  induction ss generalizing x with
  | nil => rfl
  | cons s ss ih =>
    rw [List.cons_append, transcript_cons, ih, transcript_cons]
    rfl

/-- If in every step what is held and what comes in is what goes out and what is held then, the same
is true of the whole course. -/
theorem balance_transcript {into out : Step × Answer → List Report}
    {held : Exchange γ → List Report} {I : Exchange γ → Prop} {ss : List Step}
    (step : ∀ x : Exchange γ, I x → ∀ s ∈ ss,
      I (x.perform c s).2 ∧
        held x ++ into (s, (x.perform c s).1) =
          out (s, (x.perform c s).1) ++ held (x.perform c s).2)
    (start : I x) :
    I (x.after c ss) ∧
      held x ++ (x.transcript c ss).flatMap into =
        (x.transcript c ss).flatMap out ++ held (x.after c ss) := by
  induction ss generalizing x with
  | nil => exact ⟨start, List.append_nil _⟩
  | cons s ss ih =>
    obtain ⟨still, first⟩ := step x start s List.mem_cons_self
    obtain ⟨ends, later⟩ := ih (fun x hx t ht ↦ step x hx t (List.mem_cons_of_mem s ht)) still
    refine ⟨ends, ?_⟩
    calc held x ++ (x.transcript c (s :: ss)).flatMap into
        = held x ++ into (s, (x.perform c s).1) ++
            ((x.perform c s).2.transcript c ss).flatMap into := by
          rw [transcript_cons, List.flatMap_cons, List.append_assoc]
      _ = out (s, (x.perform c s).1) ++ (held (x.perform c s).2 ++
            ((x.perform c s).2.transcript c ss).flatMap into) := by
          rw [first, List.append_assoc]
      _ = (x.transcript c (s :: ss)).flatMap out ++ held (x.after c (s :: ss)) := by
          rw [later, transcript_cons, List.flatMap_cons, List.append_assoc, after_cons]

/-! ## Collecting sink -/

/-- One step takes out, or leaves to be held, what was held and what it sends. -/
theorem stored_perform (s : Step) :
    x.collected ++ stored (s, (x.perform c s).1) =
      taken (s, (x.perform c s).1) ++ (x.perform c s).2.collected := by
  cases s with
  | collect r => rfl
  | take => rfl
  | send | reports | receive | close => exact List.append_nil _

/-- What was sent to the collecting sink was taken out, or is held, all in order. -/
theorem stored_transcript (ss : List Step) :
    x.collected ++ (x.transcript c ss).flatMap stored =
      (x.transcript c ss).flatMap taken ++ (x.after c ss).collected := by
  refine (balance_transcript (I := fun _ ↦ True) ?_ trivial).2
  intro x _ s _
  exact ⟨trivial, stored_perform s⟩

/-! ## Channel -/

section Fifo

variable {waiting : γ → List Report} {isOpen : γ → Prop}

/-- A step that does not close an open channel receives, or leaves waiting, what waited and what it
makes the channel accept. -/
theorem accepted_perform (fifo : c.Fifo waiting isOpen) (opened : isOpen x.channel) {s : Step}
    (stays : s ≠ .close) :
    isOpen (x.perform c s).2.channel ∧
      waiting x.channel ++ accepted (s, (x.perform c s).1) =
        received (s, (x.perform c s).1) ++ waiting (x.perform c s).2.channel := by
  cases s with
  | send r =>
    obtain ⟨accepts, still, behind⟩ := fifo.send x.channel r opened
    rw [perform_send, accepts]
    exact ⟨still, behind.symm⟩
  | receive =>
    obtain ⟨first, still, others⟩ := fifo.receive x.channel opened
    rw [perform_receive, first, others]
    refine ⟨still, ?_⟩
    cases waiting x.channel with
    | nil => rfl
    | cons r rs => exact List.append_nil _
  | collect | reports | take => exact ⟨opened, List.append_nil _⟩
  | close => exact absurd rfl stays

/-- What an open channel accepted was received, or waits, all in order. -/
theorem accepted_of_open (fifo : c.Fifo waiting isOpen) (opened : isOpen x.channel)
    {ss : List Step} (stays : .close ∉ ss) :
    isOpen (x.after c ss).channel ∧
      waiting x.channel ++ (x.transcript c ss).flatMap accepted =
        (x.transcript c ss).flatMap received ++ waiting (x.after c ss).channel := by
  apply balance_transcript (I := fun x ↦ isOpen x.channel) ?_ opened
  intro x opened s hs
  exact accepted_perform fifo opened (fun closes ↦ stays (closes ▸ hs))

/-- A closed channel stays closed in a step, and there is neither a report accepted nor one
received. -/
theorem perform_of_closed (fifo : c.Fifo waiting isOpen) (closed : ¬ isOpen x.channel) (s : Step) :
    ¬ isOpen (x.perform c s).2.channel ∧ accepted (s, (x.perform c s).1) = [] ∧
      received (s, (x.perform c s).1) = [] := by
  cases s with
  | send r =>
    obtain ⟨refuses, still⟩ := fifo.send_closed x.channel r closed
    rw [perform_send, refuses]
    exact ⟨still, rfl, rfl⟩
  | receive =>
    obtain ⟨nothing, still⟩ := fifo.receive_closed x.channel closed
    rw [perform_receive, nothing]
    exact ⟨still, rfl, rfl⟩
  | close => exact ⟨fifo.close _, rfl, rfl⟩
  | collect | reports | take => exact ⟨closed, rfl, rfl⟩

/-- From a closed channel nothing is accepted or received any more. -/
theorem accepted_of_closed (fifo : c.Fifo waiting isOpen) (closed : ¬ isOpen x.channel)
    (ss : List Step) :
    ¬ isOpen (x.after c ss).channel ∧ (x.transcript c ss).flatMap accepted = [] ∧
      (x.transcript c ss).flatMap received = [] := by
  induction ss generalizing x with
  | nil => exact ⟨closed, rfl, rfl⟩
  | cons s ss ih =>
    obtain ⟨still, accepts, receives⟩ := perform_of_closed fifo closed s
    obtain ⟨ends, none, nothing⟩ := ih still
    refine ⟨ends, ?_, ?_⟩
    · rw [transcript_cons, List.flatMap_cons, accepts, none, List.append_nil]
    · rw [transcript_cons, List.flatMap_cons, receives, nothing, List.append_nil]

/-- An open channel that is closed in the course of the steps is closed after them, and what was
received of it is the beginning of what it accepted. -/
theorem received_of_close (fifo : c.Fifo waiting isOpen) (opened : isOpen x.channel)
    (empty : waiting x.channel = []) {ss : List Step} (closes : .close ∈ ss) :
    ¬ isOpen (x.after c ss).channel ∧
      (x.transcript c ss).flatMap received <+: (x.transcript c ss).flatMap accepted := by
  obtain ⟨before, rest, rfl, stays⟩ := List.eq_append_cons_of_mem closes
  obtain ⟨-, balance⟩ := accepted_of_open fifo opened stays
  have closed : ¬ isOpen ((x.after c before).perform c .close).2.channel := fifo.close _
  obtain ⟨ends, none, nothing⟩ := accepted_of_closed fifo closed rest
  refine ⟨?_, ?_⟩
  · rw [after_append, after_cons]
    exact ends
  · rw [transcript_append, transcript_cons, List.flatMap_append, List.flatMap_append,
      List.flatMap_cons, List.flatMap_cons, none, nothing]
    change _ ++ [] <+: _ ++ []
    rw [List.append_nil, List.append_nil]
    rw [empty, List.nil_append] at balance
    rw [balance]
    exact List.prefix_append _ _

end Fifo

/-! ## Sides -/

/-- One side is the same. -/
def SameAt (side : Side) (x y : Exchange γ) : Prop :=
  match side with
  | .collector => x.collected = y.collected
  | .channel => x.channel = y.channel

theorem SameAt.refl (side : Side) (x : Exchange γ) : SameAt side x x := by
  cases side with
  | collector => exact Eq.refl _
  | channel => exact Eq.refl _

theorem SameAt.trans {side : Side} {z : Exchange γ} (h : SameAt side x y) (k : SameAt side y z) :
    SameAt side x z := by
  cases side with
  | collector => exact Eq.trans h k
  | channel => exact Eq.trans h k

/-- A step is answered by its side alone, and so is what becomes of the side. -/
theorem SameAt.perform {s : Step} (same : SameAt s.side x y) :
    (x.perform c s).1 = (y.perform c s).1 ∧
      SameAt s.side (x.perform c s).2 (y.perform c s).2 := by
  cases s with
  | collect r =>
    have held : x.collected = y.collected := same
    exact ⟨rfl, congrArg (· ++ [r]) held⟩
  | reports =>
    have held : x.collected = y.collected := same
    exact ⟨congrArg Answer.reports held, held⟩
  | take =>
    have held : x.collected = y.collected := same
    exact ⟨congrArg Answer.reports held, rfl⟩
  | send r =>
    have queue : x.channel = y.channel := same
    rw [perform_send, perform_send, queue]
    exact ⟨rfl, rfl⟩
  | receive =>
    have queue : x.channel = y.channel := same
    rw [perform_receive, perform_receive, queue]
    exact ⟨rfl, rfl⟩
  | close => exact ⟨rfl, congrArg c.close same⟩

/-- A step leaves the other side as it is. -/
theorem sameAt_perform {side : Side} {s : Step} (other : s.side ≠ side) :
    SameAt side (x.perform c s).2 x := by
  cases s with
  | collect | reports | take =>
    cases side with
    | collector => exact absurd rfl other
    | channel => rfl
  | send | receive | close =>
    cases side with
    | collector => rfl
    | channel => exact absurd rfl other

/-- The steps on one side are answered as without those on the other. -/
theorem filter_transcript {side : Side} (same : SameAt side x y) (ss : List Step) :
    (x.transcript c ss).filter (·.1.side = side) =
      y.transcript c (ss.filter (·.side = side)) := by
  induction ss generalizing x y with
  | nil => rfl
  | cons s ss ih =>
    rw [transcript_cons]
    by_cases here : s.side = side
    · obtain ⟨answer, later⟩ := SameAt.perform (c := c) (here ▸ same)
      rw [List.filter_cons, List.filter_cons, if_pos (decide_eq_true here),
        if_pos (decide_eq_true here), transcript_cons, answer, ih (here ▸ later)]
    · have left : ¬ decide (s.side = side) := mt of_decide_eq_true here
      rw [List.filter_cons, List.filter_cons, if_neg left, if_neg left,
        ih ((sameAt_perform here).trans same)]

end Exchange

/-! ## Offers -/

namespace Sink

variable {σ : Type} {sink : Sink σ}

/-- `sink.Offers s log t`: from `s` the reports in `log` are offered one after the other, each is
accepted or refused as it says there, and `t` is left. -/
inductive Offers (sink : Sink σ) : σ → List (Report × Bool) → σ → Prop
  | nil {s : σ} : Offers sink s [] s
  | cons {s t : σ} {r : Report} {log : List (Report × Bool)} :
      Offers sink (sink.offer s r).2 log t → Offers sink s ((r, (sink.offer s r).1) :: log) t

/-- All reports are offered, in order, whichever are refused, and those accepted are counted. -/
theorem exists_offers (sink : Sink σ) (s : σ) (rs : List Report) :
    ∃ log, sink.Offers s log (sink.offerAll s rs).2 ∧ log.map Prod.fst = rs ∧
      (sink.offerAll s rs).1 = log.countP Prod.snd := by
  induction rs generalizing s with
  | nil => exact ⟨[], .nil, rfl, rfl⟩
  | cons r rs ih =>
    obtain ⟨log, offers, reports, count⟩ := ih (sink.offer s r).2
    refine ⟨_ :: log, .cons offers, congrArg (r :: ·) reports, ?_⟩
    rw [offerAll_cons, List.countP_cons, ← count]
    cases (sink.offer s r).1 with
    | false => rfl
    | true => rfl

end Sink

namespace Session

variable {σ : Type}

/-- No step changes the resolution that is in use. -/
theorem resolution_perform (sink : Sink σ) (x : Session) (s : σ) (step : Step) :
    (x.perform sink s step).2.1.resolution = x.resolution := by
  cases step with
  | heldComplete i w h =>
    rw [perform]
    cases x.heldAt i with
    | none => rfl
    | some check => rfl
  | _ => rfl

theorem resolution_run (sink : Sink σ) (x : Session) (s : σ) (steps : List Step) :
    (x.run sink s steps).2.1.resolution = x.resolution := by
  induction steps generalizing x s with
  | nil => rfl
  | cons step steps ih =>
    rw [run]
    exact (ih _ _).trans (resolution_perform sink x s step)

end Session

/-! ## Courses of steps -/

namespace Exchange

/-- **Order.**  A collecting sink and an open, empty channel go through any course of steps.  What was
sent to the collecting sink is then, in order, what was taken out of it and what it shows, and showing
it changes nothing; it accepts every report.  The channel accepts a report exactly if it was not
closed before.  What was received of it is the beginning of what it accepted, and what is received
next is the report after that, if there is one and the channel is not closed.  The steps on each side
are answered as they would be without those on the other.

When a resolution is published, on whatever sink and after whatever else was done with both, all its
reports are offered to the sink, each once and in order, whichever of them it refuses; those that it
accepts are counted, and the resolution in use stays what it was. -/
theorem once_in_order {γ : Type} {c : ReportChannel γ} {waiting : γ → List Report}
    {isOpen : γ → Prop} (fifo : c.Fifo waiting isOpen) {q : γ} (opened : isOpen q)
    (empty : waiting q = []) :
    (∀ ss : List Step,
      let x : Exchange γ := ⟨[], q⟩
      let past := x.transcript c ss
      let y := x.after c ss
      (∃ shown, past.flatMap stored = past.flatMap taken ++ shown ∧
          y.perform c .reports = (.reports shown, y) ∧ (y.perform c .take).1 = .reports shown) ∧
        (∀ r, (y.perform c (.collect r)).1 = .sent true ∧
          (y.perform c (.send r)).1 = .sent (decide (.close ∉ ss))) ∧
        past.flatMap received <+: past.flatMap accepted ∧
        (y.perform c .receive).1 = .received (if .close ∈ ss then none
          else (past.flatMap accepted)[(past.flatMap received).length]?) ∧
        ∀ side, past.filter (·.1.side = side) = x.transcript c (ss.filter (·.side = side))) ∧
      ∀ {σ : Type} (r : Resolution) (sink : Sink σ) (s : σ) (steps : List Session.Step),
        let used := ((Session.ofResolution r).run sink s steps).2
        let published := used.1.perform sink used.2 .publish
        used.1.resolution = r ∧ published.2.1 = used.1 ∧
          ∃ log, sink.Offers used.2 log published.2.2 ∧ log.map Prod.fst = r.reports ∧
            published.1 = .published (log.countP Prod.snd) := by
  constructor
  · intro ss x past y
    have kept : past.flatMap stored = past.flatMap taken ++ y.collected :=
      stored_transcript (x := x) ss
    have sides (side : Side) :
        past.filter (·.1.side = side) = x.transcript c (ss.filter (·.side = side)) :=
      filter_transcript (.refl side x) ss
    by_cases closes : .close ∈ ss
    · obtain ⟨closed, front⟩ := received_of_close (x := x) fifo opened empty closes
      refine ⟨⟨y.collected, kept, rfl, rfl⟩, fun r ↦ ⟨rfl, ?_⟩, front, ?_, sides⟩
      · rw [perform_send, (fifo.send_closed _ r closed).1]
        simp only [closes, not_true_eq_false, decide_false]
      · rw [perform_receive, (fifo.receive_closed _ closed).1, if_pos closes]
    · obtain ⟨still, balance⟩ := accepted_of_open (x := x) fifo opened closes
      have total : past.flatMap accepted = past.flatMap received ++ waiting y.channel := by
        rwa [empty, List.nil_append] at balance
      refine ⟨⟨y.collected, kept, rfl, rfl⟩, fun r ↦ ⟨rfl, ?_⟩, ?_, ?_, sides⟩
      · rw [perform_send, (fifo.send _ r still).1]
        simp only [closes, not_false_eq_true, decide_true]
      · rw [total]
        exact List.prefix_append _ _
      · rw [perform_receive, (fifo.receive _ still).1, if_neg closes, total,
          List.getElem?_append_right (Nat.le_refl _), Nat.sub_self, List.head?_eq_getElem?]
  · intro σ r sink s steps used published
    have same : used.1.resolution = r := Session.resolution_run sink (.ofResolution r) s steps
    obtain ⟨log, offers, reports, count⟩ := sink.exists_offers used.2 used.1.resolution.reports
    rw [same] at reports
    exact ⟨same, rfl, log, offers, reports, congrArg Session.Answer.published count⟩

/-- A queue in which a report waits is closed, and a sink refuses the second of three reports. -/
theorem once_in_order_closed :
    let a : Report := ⟨.error, ⟨"a.glsl", []⟩⟩
    let b : Report := ⟨.warning, ⟨"b.glsl", []⟩⟩
    let c := ReportQueue.channel
    let q : ReportQueue := {}
    let ss : List Step :=
      [.collect a, .send b, .send a, .take, .collect b, .receive, .reports, .close, .send a]
    let past := transcript c ⟨[], q⟩ ss
    let y := after c ⟨[], q⟩ ss
    let r : Resolution := ⟨[], [a, b, a], .empty⟩
    let sink := Sink.gated (· ≠ 1)
    c.Fifo ReportQueue.waiting (fun q ↦ q.isOpen) ∧ q.isOpen ∧ q.waiting = [] ∧
      (∃ shown, [a, b] = [a] ++ shown ∧ y.perform c .reports = (.reports shown, y)) ∧
      (y.perform c (.send b)).1 = .sent false ∧
      [b] <+: past.flatMap accepted ∧ (y.perform c .receive).1 = .received none ∧
      past.filter (·.1.side = .collector) =
        transcript c ⟨[], q⟩ [.collect a, .take, .collect b, .reports] ∧
      ∃ log, sink.Offers (0, []) log (3, [a, a]) ∧ log.map Prod.fst = [a, b, a] ∧
        ((Session.ofResolution r).perform sink (0, []) .publish).1 =
          .published (log.countP Prod.snd) := by
  intro a b c q ss past y r sink
  have fifo : c.Fifo ReportQueue.waiting (fun q ↦ q.isOpen) := ReportQueue.fifo
  have opened : q.isOpen = true := rfl
  have empty : q.waiting = [] := rfl
  obtain ⟨course, publish⟩ := once_in_order fifo opened empty
  obtain ⟨⟨shown, kept, showing, -⟩, sending, front, next, sides⟩ := course ss
  obtain ⟨-, -, log, offers, reports, count⟩ := publish r sink (0, []) []
  exact ⟨fifo, opened, empty, ⟨shown, kept, showing⟩, (sending b).2, front, next,
    sides .collector, log, offers, reports, count⟩

end Exchange

end ShaderChannels
