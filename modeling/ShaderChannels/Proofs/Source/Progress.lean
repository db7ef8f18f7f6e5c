import Mathlib.Logic.Function.Iterate
import ShaderChannels.Proofs.Source.Lookahead
import ShaderChannels.Proofs.Source.Position
import ShaderChannels.Proofs.Source.Trivia

/-!
# Progress

A lexer never stands still before its end.  A step takes in at least one character, except that what
was looked ahead to is delivered without taking in any; so the characters ahead, and one if something
was looked ahead to, bound the steps that are left.  A step that delivers nothing has gone past one
skipped word or to the end.

* `Lexer.atEnd_advance` — the steps that are left lead to the end, and the last of them is the first
  to reach it.
* `Lexer.length_deliveries_le` — the bound on their number.
* `Lexer.skips_or_trails` — what a step went past that delivers nothing.
* `Lexer.perform_of_atEnd`, `Lexer.run_of_atEnd` — at the end nothing is shown and the end stays.
* `Lexer.run_progresses` — all this holds at first and after each step of every history.
-/

namespace ShaderChannels

/-- The characters behind an exact cursor and those ahead of it make up the text. -/
theorem Cursor.Exact.pos_add_length {text : List Char} {c : Cursor} (h : Exact text c) :
    c.pos + c.rest.length = text.length := by
  rw [h.rest_eq, List.length_drop, Nat.add_sub_cancel' h.pos_le]

namespace Lexer

variable {text : List Char} {l : Lexer}

/-! ## Steps up to the end -/

/-- The lexer after the next step. -/
def advance (l : Lexer) : Lexer := l.next.2

/-- The steps that are left lead to the end, and none of them but the last one reaches it. -/
theorem atEnd_advance (l : Lexer) :
    (advance^[l.deliveries.length] l).atEnd ∧
      ∀ k < l.deliveries.length, (advance^[k] l).atEnd = false := by
  induction l using deliveries.induct with
  | case1 l ended =>
    rw [deliveries_of_atEnd ended]
    exact ⟨ended, fun k hk ↦ absurd hk (Nat.not_lt_zero k)⟩
  | case2 l before ih =>
    rw [deliveries_of_not_atEnd before, List.length_cons]
    refine ⟨ih.1, fun k hk ↦ ?_⟩
    cases k with
    | zero => exact Bool.eq_false_iff.mpr before
    | succ k => exact ih.2 k (Nat.lt_of_succ_lt_succ hk)

/-- A step that was not looked ahead takes in at least one character before the end. -/
theorem rest_next_lt (none : l.ahead = none) (before : l.atEnd = false) :
    l.next.2.cursor.rest.length < l.cursor.rest.length := by
  rw [atEnd_of_ahead none, List.isEmpty_eq_false_iff] at before
  rw [next_of_ahead none]
  exact length_rest_lookAt before

/-- No more steps are left than there are characters ahead, and one if something was looked ahead
to: the step that delivers it takes in none. -/
theorem length_deliveries_le (l : Lexer) :
    l.deliveries.length ≤ l.cursor.rest.length + l.ahead.toList.length := by
  induction l using deliveries.induct with
  | case1 l ended =>
    rw [deliveries_of_atEnd ended]
    exact Nat.zero_le _
  | case2 l before ih =>
    rw [deliveries_of_not_atEnd before, List.length_cons]
    rw [ahead_next] at ih
    cases ahead : l.ahead with
    | none =>
      have := rest_next_lt ahead (Bool.eq_false_iff.mpr before)
      simp only [Option.toList_none, List.length_nil] at ih ⊢
      omega
    | some a =>
      have still : l.next.2.cursor = l.cursor := by rw [next, fill, ahead]
      rw [still] at ih
      simp only [Option.toList_none, Option.toList_some, List.length_nil, List.length_singleton]
        at ih ⊢
      omega

/-! ## Steps that deliver nothing -/

/-- A step in a text ends within it. -/
theorem pos_next_eq (none : l.ahead = none) : l.next.2.cursor.pos = l.next.2.lastSpan.stop := by
  rw [next_of_ahead none]
  rfl

/-- `Skips text p s`: from offset `p` on, `text` has blanks and comments and then, as the span `s`,
a `#` word that names no preview directive. -/
def Skips (text : List Char) (p : Nat) (s : Span) : Prop :=
  p ≤ s.start ∧ Trivia.Run (Span.slice ⟨p, s.start⟩ text) (text.drop s.start) ∧
    ∃ word, s.slice text = '#' :: word ∧ Filler ('#' :: word) (text.drop s.stop)

/-- `Trails text p s`: from offset `p` on, `text` has blanks and comments only, and the span `s` is
empty and at the end. -/
def Trails (text : List Char) (p : Nat) (s : Span) : Prop :=
  Trivia.Run (text.drop p) [] ∧ s = .empty text.length

/-- A step that delivers nothing and was not looked ahead goes past a skipped word or to the end. -/
theorem skips_or_trails (h : l.cursor.Exact text) (none : l.ahead = none)
    (nothing : l.next.1 = Option.none) :
    Skips text l.cursor.pos l.next.2.lastSpan ∨ Trails text l.cursor.pos l.next.2.lastSpan := by
  obtain ⟨token, span, -, -⟩ := next_of_scan none rfl
  have run := Scan.run_trivia l.cursor.rest
  have whole := (Scan.append_ofText l.cursor.rest).trans h.rest_eq
  have found := Scan.skips_or_trails (token.symm.trans nothing)
  have slice := slice_next none h
  rw [span] at slice ⊢
  rcases found with ⟨word, lexeme, filler⟩ | ⟨trivia, lexeme, trails⟩
  · left
    refine ⟨Nat.le_add_right _ _, ?_, word, slice.trans lexeme, ?_⟩
    · dsimp only
      rwa [Span.slice_of_drop whole.symm, h.drop_trivia]
    · dsimp only
      rwa [h.drop_lexeme]
  · right
    rw [trivia, lexeme, List.length_nil, Nat.add_zero, h.pos_add_length]
    rw [h.rest_eq] at trails
    exact ⟨trails, rfl⟩

/-! ## At the end -/

/-- Looking ahead at the end leaves the end. -/
theorem atEnd_peek_of_atEnd (h : l.atEnd) : l.peek.2.atEnd := by
  obtain ⟨c, ahead, s, n⟩ := l
  cases ahead with
  | some a => exact h
  | none =>
    -- the cursor after the look is the one after the step
    obtain ⟨nothing, still⟩ := next_of_atEnd h
    simp only [next, peek, fill] at nothing still ⊢
    generalize lookAt c = r at *
    obtain ⟨⟨t, _, _⟩, d⟩ := r
    obtain rfl : t = none := nothing
    exact still

/-- An answer that shows no token. -/
def Answer.Empty (a : Answer) : Prop := a = .token none ∨ a = .tokens []

/-- At the end a step shows no token and does not leave the end, unless it moves. -/
theorem perform_of_atEnd (h : l.atEnd) {s : Step} (stays : s.isReset = false) :
    (l.perform s).1.Empty ∧ (l.perform s).2.atEnd := by
  obtain ⟨nothing, still⟩ := next_of_atEnd h
  cases s with
  | peek => exact ⟨.inl (congrArg Answer.token nothing), atEnd_peek_of_atEnd h⟩
  | next => exact ⟨.inl (congrArg Answer.token nothing), still⟩
  | take n =>
    have rests : l.take n = ([], l) := by
      cases n with
      | zero => rw [take]
      | succ n => rw [take, if_pos h]
    rw [perform, rests]
    exact ⟨.inr rfl, h⟩
  | drain =>
    have rests : l.drain = ([], l) := by rw [drain, if_pos h]
    rw [perform, rests]
    exact ⟨.inr rfl, h⟩
  | reset => exact absurd stays (by simp [Step.isReset])

/-- From the end on, nothing is shown and the end is not left in any course of steps without a
move. -/
theorem run_of_atEnd (h : l.atEnd) {ss : List Step} (stay : ∀ s ∈ ss, s.isReset = false) :
    ∀ r ∈ l.run ss, r.1.Empty ∧ r.2.atEnd := by
  induction ss generalizing l with
  | nil => exact List.forall_mem_nil _
  | cons s ss ih =>
    obtain ⟨stays, later⟩ := List.forall_mem_cons.mp stay
    have here := perform_of_atEnd h stays
    rw [run, List.forall_mem_cons]
    exact ⟨here, ih here.2 later⟩

/-! ## Reachable lexers -/

/-- `Progresses text l`: the lexer `l` in `text` gets on, and stops at the end. -/
structure Progresses (text : List Char) (l : Lexer) : Prop where
  /-- Steps one after the other come to the end, and with the last of them for the first time; there
  is at most one more of them than characters ahead. -/
  ends : ∃ n ≤ l.cursor.rest.length + 1, (advance^[n] l).atEnd ∧
    ∀ k < n, (advance^[k] l).atEnd = false
  /-- A step before the end that was not looked ahead takes in a character. -/
  consumes : l.ahead = none → l.atEnd = false →
    l.cursor.pos < l.advance.cursor.pos ∧ l.advance.cursor.pos ≤ text.length
  /-- If such a step delivers nothing, it goes past blanks and comments, and then past one skipped
  word, which is what was last delivered, or to the end. -/
  nothing : l.ahead = none → l.atEnd = false → l.next.1 = none →
    l.advance.cursor.pos = l.advance.lastSpan.stop ∧
      (Skips text l.cursor.pos l.advance.lastSpan ∨ Trails text l.cursor.pos l.advance.lastSpan)
  /-- At the end nothing more is shown, and the end is not left, before a move. -/
  stays : l.atEnd → ∀ ss : List Step, (∀ s ∈ ss, s.isReset = false) →
    ∀ r ∈ l.run ss, r.1.Empty ∧ r.2.atEnd

theorem Exact.progresses (h : Exact text l) : Progresses text l where
  ends := by
    refine ⟨l.deliveries.length, ?_, atEnd_advance l⟩
    have bound := length_deliveries_le l
    have : l.ahead.toList.length ≤ 1 := by cases l.ahead <;> simp
    omega
  consumes none before := by
    have less := rest_next_lt none before
    have here := h.cursor.pos_add_length
    have after := h.next.cursor.pos_add_length
    rw [advance]
    omega
  nothing none _ nothing := ⟨pos_next_eq none, skips_or_trails h.cursor none nothing⟩
  stays ended _ stay := run_of_atEnd ended stay

/-- **Progress.**  A lexer gets on at first and after each step of every history. -/
theorem run_progresses (text : List Char) (ss : List Step) :
    List.Forall₂ Progresses (text :: textsAfter text ss)
      (ofText text :: ((ofText text).run ss).map Prod.snd) :=
  List.Forall₂.imp (fun _ _ h ↦ h.progresses) ((exact_ofText text).run ss)

end Lexer

end ShaderChannels
