import Mathlib.Logic.Function.Iterate
import ShaderChannels.Source.History

/-!
# Lookahead

Looking ahead makes no difference to what a lexer hands out.  It does make a difference to when the
lexer counts as being at its end: where only trivia and skipped words are left, a lexer that has
looked at them is at the end, and one that has not yet done so still has an empty step to make.  So
two lexers that differ in lookahead alone are not in step with each other; what they agree in is
the tokens that are still to come.

* `Lexer.remaining` — the tokens still to come, each with its place and line.
* `Lexer.Agree` — two lexers hand out the same from now on, whatever is done with them.
* `Lexer.agree_perform` — every step but a look ahead keeps lexers in agreement.
* `Lexer.lookahead_transparent` — looking ahead is invisible in what is handed out.
-/

namespace ShaderChannels

/-- A token that was handed out, with where it stands and the line it starts on. -/
structure Delivery where
  token : Token
  span : Span
  line : Nat
deriving DecidableEq

/-- A delivery as an iteration shows it, without its line. -/
def Delivery.placed (d : Delivery) : Placed := ⟨d.token, d.span⟩

namespace Lexer

/-! ## What is still to come -/

/-- What a step that gave `r` has handed out. -/
def delivery? (r : Option Token × Lexer) : Option Delivery :=
  r.1.map (⟨·, r.2.lastSpan, r.2.lastLine⟩)

/-- The tokens still to come: what is handed out by steps up to the end. -/
def remaining (l : Lexer) : List Delivery := l.deliveries.filterMap delivery?

/-- At the end a step delivers nothing and does not leave the end. -/
theorem next_of_atEnd {l : Lexer} (h : l.atEnd) : l.next.1 = none ∧ l.next.2.atEnd := by
  obtain ⟨c, ahead, s, n⟩ := l
  cases ahead with
  | some a =>
    obtain ⟨t, p, m⟩ := a
    cases t with
    | some t => simp [atEnd] at h
    | none => exact ⟨rfl, h⟩
  | none =>
    have nothing : c.rest = [] := by simpa [atEnd, Cursor.atEnd] using h
    simp [next, fill, lookAt, atEnd, Cursor.atEnd, nothing, Scan.ofText, Scan.token?,
      Trivia.split, Trivia.splitFrom, Lexeme.split, Token.ofLexeme?]

/-- At the end no steps are left. -/
theorem deliveries_of_atEnd {l : Lexer} (h : l.atEnd) : l.deliveries = [] := by
  rw [deliveries, if_pos h]

/-- Before the end the next step is left and those after it. -/
theorem deliveries_of_not_atEnd {l : Lexer} (h : ¬ l.atEnd) :
    l.deliveries = l.next :: l.next.2.deliveries := by
  rw [deliveries, if_neg h]

/-- What is read off the steps that are left, where nothing is read off a step that delivers nothing,
is read off the next step and off those after it.  This holds at the end as well, so that it does
not matter whether a lexer knows that it is there. -/
theorem filterMap_deliveries {α : Type} {f : Option Token × Lexer → Option α}
    (silent : ∀ m, f (none, m) = none) (l : Lexer) :
    l.deliveries.filterMap f = (f l.next).toList ++ l.next.2.deliveries.filterMap f := by
  by_cases h : l.atEnd
  · obtain ⟨nothing, still⟩ := next_of_atEnd h
    have next : l.next = (none, l.next.2) := Prod.ext nothing rfl
    rw [deliveries_of_atEnd h, deliveries_of_atEnd still, next, silent]
    rfl
  · rw [deliveries_of_not_atEnd h, List.filterMap_cons]
    cases f l.next <;> rfl

/-- What each step makes true, and hands on to the next one, is true of all steps that are left. -/
theorem forall_deliveries {I : Lexer → Prop} {P : Option Token × Lexer → Prop}
    (step : ∀ l : Lexer, l.ahead = none → I l → P l.next ∧ I l.next.2) {l : Lexer}
    (none : l.ahead = none) (h : I l) : ∀ r ∈ l.deliveries, P r := by
  induction l using deliveries.induct with
  | case1 l ended =>
    rw [deliveries_of_atEnd ended]
    exact List.forall_mem_nil P
  | case2 l before ih =>
    obtain ⟨here, after⟩ := step l none h
    rw [deliveries_of_not_atEnd before, List.forall_mem_cons]
    exact ⟨here, ih (ahead_next l) after⟩

/-- At the end nothing is still to come. -/
theorem remaining_of_atEnd {l : Lexer} (h : l.atEnd) : l.remaining = [] := by
  rw [remaining, deliveries_of_atEnd h]
  rfl

/-- What is still to come is what the next step hands out and what is to come after it. -/
theorem remaining_eq (l : Lexer) :
    l.remaining = (delivery? l.next).toList ++ l.next.2.remaining :=
  filterMap_deliveries (fun _ ↦ rfl) l

/-- Where a step delivers nothing, the same is to come after it. -/
theorem remaining_of_next_eq_none {l : Lexer} (h : l.next.1 = none) :
    l.next.2.remaining = l.remaining := by
  rw [remaining_eq l, delivery?, h]
  rfl

/-- Where a step delivers a token, it was the first to come. -/
theorem remaining_of_next_eq_some {l : Lexer} {t : Token} (h : l.next.1 = some t) :
    l.remaining = ⟨t, l.next.2.lastSpan, l.next.2.lastLine⟩ :: l.next.2.remaining := by
  rw [remaining_eq l, delivery?, h]
  rfl

/-- Before the end, taking tokens depends on the next step only. -/
theorem take_succ {l : Lexer} (h : ¬ l.atEnd) (n : Nat) :
    l.take (n + 1) = match l.next.1 with
      | none => take (n + 1) l.next.2
      | some t => (take n l.next.2).map (⟨t, l.next.2.lastSpan⟩ :: ·) id := by
  rw [take]
  refine (if_neg h).trans ?_
  cases l.next.1 <;> rfl

/-- Before the end, draining depends on the next step only. -/
theorem drain_of_not_atEnd {l : Lexer} (h : ¬ l.atEnd) :
    l.drain = match l.next.1 with
      | none => drain l.next.2
      | some t => (drain l.next.2).map (⟨t, l.next.2.lastSpan⟩ :: ·) id := by
  rw [drain]
  refine (if_neg h).trans ?_
  cases l.next.1 <;> rfl

/-- Taking tokens hands out the first ones to come and leaves the others. -/
theorem take_eq (n : Nat) (l : Lexer) :
    (l.take n).1 = (l.remaining.take n).map Delivery.placed ∧
      (l.take n).2.remaining = l.remaining.drop n := by
  fun_induction take n l with
  | case1 l => exact ⟨rfl, rfl⟩
  | case2 l n hend =>
    rw [remaining_of_atEnd hend]
    exact ⟨rfl, rfl⟩
  | case3 l n _ ht ih =>
    rwa [remaining_of_next_eq_none ht] at ih
  | case4 l n _ t ht ih =>
    rw [remaining_of_next_eq_some ht]
    exact ⟨congrArg (_ :: ·) ih.1, ih.2⟩

/-- Draining hands out all that is to come, and ends at the end. -/
theorem drain_eq (l : Lexer) :
    l.drain.1 = l.remaining.map Delivery.placed ∧ l.drain.2.atEnd := by
  fun_induction drain l with
  | case1 l hend =>
    rw [remaining_of_atEnd hend]
    exact ⟨rfl, hend⟩
  | case2 l _ ht ih =>
    rwa [remaining_of_next_eq_none ht] at ih
  | case3 l _ t ht ih =>
    rw [remaining_of_next_eq_some ht]
    exact ⟨congrArg (_ :: ·) ih.1, ih.2⟩

/-! ## Looking ahead -/

/-- A second look finds what the first one found. -/
theorem fill_fill (l : Lexer) : l.fill.2.fill = l.fill := by
  obtain ⟨c, ahead, s, n⟩ := l
  cases ahead <;> rfl

/-- A look ahead shows what the next step delivers. -/
theorem fst_peek (l : Lexer) : l.peek.1 = l.next.1 := rfl

/-- A step delivers the same, and leaves the same lexer, after a look ahead as without it. -/
theorem next_peek (l : Lexer) : l.peek.2.next = l.next := by
  have same : l.peek.2.fill = l.fill := fill_fill l
  rw [next, next, same]

/-- A look ahead leaves what was last delivered. -/
theorem last_peek (l : Lexer) :
    l.peek.2.lastSpan = l.lastSpan ∧ l.peek.2.lastLine = l.lastLine := by
  obtain ⟨c, ahead, s, n⟩ := l
  cases ahead <;> exact ⟨rfl, rfl⟩

/-- A look ahead leaves what is still to come. -/
theorem remaining_peek (l : Lexer) : l.peek.2.remaining = l.remaining := by
  rw [remaining_eq l.peek.2, remaining_eq l, next_peek]

/-! ## Histories -/

/-- Whether a step moves to another place. -/
def Step.isReset : Step → Bool
  | .reset .. => true
  | .peek | .next | .take _ | .drain => false

/-- What a step hands out.  A look ahead hands out nothing, and neither does a move. -/
def handout (l : Lexer) : Step → List Delivery
  | .peek | .reset .. => []
  | .next => (delivery? l.next).toList
  | .take n => l.remaining.take n
  | .drain => l.remaining

/-- What the steps of a history hand out, one entry for each step that is not a look ahead. -/
def handouts (l : Lexer) : List Step → List (List Delivery)
  | [] => []
  | .peek :: ss => l.peek.2.handouts ss
  | s :: ss => l.handout s :: (l.perform s).2.handouts ss

/-- An answer shows the tokens of some deliveries, and their places if it shows any place. -/
def Answer.Shows : Answer → List Delivery → Prop
  | .token t, ds => ds.map Delivery.token = t.toList
  | .tokens ps, ds => ds.map Delivery.placed = ps
  | .moved, ds | .refused _, ds => ds = []

/-- The answer to a step other than a look ahead shows what the step hands out. -/
theorem shows_handout (l : Lexer) {s : Step} (hs : s ≠ .peek) :
    (l.perform s).1.Shows (l.handout s) := by
  cases s with
  | peek => exact absurd rfl hs
  | next =>
    change (delivery? l.next).toList.map Delivery.token = l.next.1.toList
    rw [delivery?]
    cases l.next.1 <;> rfl
  | take n => exact (take_eq n l).1.symm
  | drain => exact (drain_eq l).1.symm
  | reset text p =>
    rw [perform]
    cases Lexer.at? text p <;> rfl

/-- A step that hands out a token, or nothing, takes it from what is to come. -/
theorem handout_append_remaining (l : Lexer) {s : Step} (hs : s.isReset = false) :
    l.handout s ++ (l.perform s).2.remaining = l.remaining := by
  cases s with
  | peek => exact remaining_peek l
  | next => exact (remaining_eq l).symm
  | take n =>
    change l.remaining.take n ++ (l.take n).2.remaining = l.remaining
    rw [(take_eq n l).2, List.take_append_drop]
  | drain =>
    change l.remaining ++ l.drain.2.remaining = l.remaining
    rw [remaining_of_atEnd (drain_eq l).2, List.append_nil]
  | reset text p => exact absurd hs (by simp [Step.isReset])

/-! ## Agreement -/

/-- Two lexers hand out the same from now on: the next step does the same with them, or nothing is
to come from either. -/
def Agree (l m : Lexer) : Prop := l.next = m.next ∨ l.remaining = [] ∧ m.remaining = []

theorem Agree.refl (l : Lexer) : Agree l l := .inl rfl

/-- From lexers in agreement the same is to come. -/
theorem Agree.remaining_eq {l m : Lexer} (h : Agree l m) : l.remaining = m.remaining := by
  rcases h with same | ⟨hl, hm⟩
  · rw [Lexer.remaining_eq l, Lexer.remaining_eq m, same]
  · rw [hl, hm]

/-- A look ahead keeps lexers in agreement. -/
theorem Agree.peek {l m : Lexer} (h : Agree l m) : Agree l.peek.2 m := by
  rcases h with same | ⟨hl, hm⟩
  · exact .inl ((next_peek l).trans same)
  · exact .inr ⟨(remaining_peek l).trans hl, hm⟩

/-- Lexers in agreement hand out the same. -/
theorem Agree.handout_eq {l m : Lexer} (h : Agree l m) (s : Step) :
    l.handout s = m.handout s := by
  cases s with
  | peek => rfl
  | next =>
    rcases h with same | ⟨hl, hm⟩
    · exact congrArg (fun r ↦ (delivery? r).toList) same
    · rw [Lexer.remaining_eq] at hl hm
      exact (List.append_eq_nil_iff.mp hl).1.trans (List.append_eq_nil_iff.mp hm).1.symm
  | take n => exact congrArg (List.take n) h.remaining_eq
  | drain => exact h.remaining_eq
  | reset text p => rfl

/-- Taking tokens keeps lexers in agreement.  If one of them is at the end and the other is not, the
two take different courses, but then nothing is to come from either. -/
theorem Agree.take {l m : Lexer} (h : Agree l m) (n : Nat) : Agree (l.take n).2 (m.take n).2 := by
  by_cases nothing : l.remaining = []
  · have nothing' : m.remaining = [] := h.remaining_eq ▸ nothing
    refine .inr ⟨?_, ?_⟩
    · rw [(take_eq n l).2, nothing, List.drop_nil]
    · rw [(take_eq n m).2, nothing', List.drop_nil]
  · cases n with
    | zero => simpa [Lexer.take] using h
    | succ n =>
      have same : l.next = m.next := h.resolve_right fun both ↦ nothing both.1
      have hl : ¬ l.atEnd := fun hend ↦ nothing (remaining_of_atEnd hend)
      have hm : ¬ m.atEnd := fun hend ↦
        nothing (h.remaining_eq.trans (remaining_of_atEnd hend))
      have courses : l.take (n + 1) = m.take (n + 1) := by
        rw [take_succ hl, take_succ hm, same]
      rw [courses]
      exact .refl _

/-- Every step but a look ahead keeps lexers in agreement. -/
theorem agree_perform {l m : Lexer} (h : Agree l m) {s : Step} (hs : s ≠ .peek) :
    Agree (l.perform s).2 (m.perform s).2 := by
  cases s with
  | peek => exact absurd rfl hs
  | next =>
    rcases h with same | ⟨hl, hm⟩
    · have after : l.next.2 = m.next.2 := congrArg Prod.snd same
      change Agree l.next.2 m.next.2
      rw [after]
      exact .refl _
    · rw [remaining_eq] at hl hm
      exact .inr ⟨(List.append_eq_nil_iff.mp hl).2, (List.append_eq_nil_iff.mp hm).2⟩
  | take n => exact h.take n
  | drain =>
    exact .inr ⟨remaining_of_atEnd (drain_eq l).2, remaining_of_atEnd (drain_eq m).2⟩
  | reset text p =>
    simp only [perform]
    cases Lexer.at? text p with
    | ok => exact .refl _
    | error => exact h

/-- The entries of a history that starts with anything but a look ahead. -/
theorem handouts_cons (l : Lexer) {s : Step} (hs : s ≠ .peek) (ss : List Step) :
    l.handouts (s :: ss) = l.handout s :: (l.perform s).2.handouts ss := by
  cases s with
  | peek => exact absurd rfl hs
  | next => rfl
  | take n => rfl
  | drain => rfl
  | reset text p => rfl

/-- Lexers in agreement hand out the same in a history and in the history without its looks
ahead. -/
theorem Agree.handouts_eq {l m : Lexer} (h : Agree l m) (ss : List Step) :
    l.handouts ss = m.handouts (ss.filter (· ≠ .peek)) := by
  induction ss generalizing l m with
  | nil => rfl
  | cons s ss ih =>
    by_cases hs : s = .peek
    · subst hs
      exact ih h.peek
    · have kept : (s :: ss).filter (· ≠ .peek) = s :: ss.filter (· ≠ .peek) :=
        List.filter_cons_of_pos (by simpa using hs)
      rw [kept, handouts_cons l hs, handouts_cons m hs, h.handout_eq s, ih (agree_perform h hs)]

/-- What a history without moves hands out, followed by what is still to come after it, was all to
come before it. -/
theorem flatten_handouts_drain (l : Lexer) {ss : List Step} (hss : ∀ s ∈ ss, s.isReset = false) :
    (l.handouts (ss ++ [.drain])).flatten = l.remaining := by
  induction ss generalizing l with
  | nil => exact List.append_nil _
  | cons s ss ih =>
    obtain ⟨hs, rest⟩ := List.forall_mem_cons.mp hss
    by_cases look : s = .peek
    · subst look
      exact (ih l.peek.2 rest).trans (remaining_peek l)
    · rw [List.cons_append, handouts_cons l look, List.flatten_cons, ih _ rest]
      exact handout_append_remaining l hs

/-- Where nothing is to come, no history without moves hands out anything. -/
theorem handouts_of_remaining_eq_nil {l : Lexer} (h : l.remaining = []) {ss : List Step}
    (hss : ∀ s ∈ ss, s.isReset = false) : ∀ ds ∈ l.handouts ss, ds = [] := by
  induction ss generalizing l with
  | nil => exact fun ds hds ↦ absurd hds List.not_mem_nil
  | cons s ss ih =>
    obtain ⟨hs, rest⟩ := List.forall_mem_cons.mp hss
    have split := handout_append_remaining l hs
    rw [h, List.append_eq_nil_iff] at split
    by_cases look : s = .peek
    · subst look
      exact ih split.2 rest
    · rw [handouts_cons l look]
      exact List.forall_mem_cons.mpr ⟨split.1, ih split.2 rest⟩

/-- Looking ahead any number of times shows what the next step delivers, and changes neither what
it delivers nor what was last delivered. -/
theorem iterate_peek (l : Lexer) (k : Nat) :
    let m := (fun l ↦ l.peek.2)^[k] l
    m.next = l.next ∧ m.lastSpan = l.lastSpan ∧ m.lastLine = l.lastLine := by
  induction k with
  | zero => exact ⟨rfl, rfl, rfl⟩
  | succ k ih =>
    obtain ⟨next, span, line⟩ := ih
    simp only [Function.iterate_succ_apply']
    refine ⟨(next_peek _).trans next, ?_, ?_⟩
    · exact (last_peek _).1.trans span
    · exact (last_peek _).2.trans line

/-- **Lookahead transparency.**  Answers show what the steps hand out, and taking all looks ahead
out of a history changes nothing that is handed out.  Looks ahead, however many, show what the next
step delivers and leave what was last delivered.  A lexer at its end hands out no more tokens before
a move, and one that is drained, after whatever steps, has handed out all that were to come. -/
theorem lookahead_transparent (l : Lexer) :
    (∀ s, s ≠ .peek → (l.perform s).1.Shows (l.handout s)) ∧
      (∀ ss, l.handouts ss = l.handouts (ss.filter (· ≠ .peek))) ∧
      (∀ k, let m := (fun l ↦ l.peek.2)^[k] l
        m.peek.1 = l.next.1 ∧ m.next = l.next ∧
          m.lastSpan = l.lastSpan ∧ m.lastLine = l.lastLine) ∧
      (∀ ss, l.atEnd → (∀ s ∈ ss, s.isReset = false) → ∀ ds ∈ l.handouts ss, ds = []) ∧
      (∀ ss, (∀ s ∈ ss, s.isReset = false) →
        (l.handouts (ss ++ [.drain])).flatten = l.remaining) ∧
      l.drain.2.atEnd := by
  refine ⟨fun s hs ↦ shows_handout l hs, (Agree.refl l).handouts_eq, fun k ↦ ?_,
    fun ss hend hss ↦ ?_, fun ss hss ↦ flatten_handouts_drain l hss, (drain_eq l).2⟩
  · obtain ⟨next, last⟩ := iterate_peek l k
    refine ⟨?_, next, last⟩
    rw [fst_peek, next]
  · exact handouts_of_remaining_eq_nil (remaining_of_atEnd hend) hss

/-- A lexer that looked ahead to a skipped word at the end of its text is at the end, although a
step over that word is still to be made. -/
theorem lookahead_transparent_skipped :
    let l := (ofText " #version".toList).peek.2
    l.atEnd = true ∧ l.ahead.isSome = true ∧ (l.perform .next).1.Shows (l.handout .next) ∧
      (∀ ds ∈ l.handouts [.next, .peek, .take 2, .drain], ds = []) ∧
      (l.handouts ([.next, .take 2] ++ [.drain])).flatten = l.remaining := by
  intro l
  obtain ⟨shows, -, -, ended, drained, -⟩ := lookahead_transparent l
  refine ⟨by decide, by decide, shows _ (by decide), ended _ (by decide) (by decide), ?_⟩
  exact drained _ (by decide)

end Lexer

end ShaderChannels
