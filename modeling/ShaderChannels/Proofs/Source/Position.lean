import Mathlib.Data.List.Forall2
import ShaderChannels.Source.History

/-!
# Positions and lines

A place in a text has an offset and a line, and the line is the number of line ends before the
offset.  Nothing computes it in this way all the time: a cursor counts line ends as it passes them,
and counts them anew only when it moves to another text; a lexer notes the line of a lexeme before
it reads the lexeme, and the end of the lexeme after that.

* `Cursor.Exact`, `Lexer.Exact` — offsets lie within the text, and lines are those of the offsets.
* `Cursor.Exact.past` — the step that carries both: going past what lies ahead stays exact.
* `Cursor.exact_perform`, `Lexer.exact_perform` — every step keeps offsets and lines exact.
* `Lexer.exact_run` — so they are exact after each step of every history.
-/

namespace ShaderChannels

/-! ## Places of a text -/

/-- The line of an offset: the number of line ends before it. -/
def lineAt (text : List Char) (p : Nat) : Nat := (text.take p).count '\n'

/-- `Located text s line`: the span `s` lies within `text` and starts on `line`. -/
structure Located (text : List Char) (s : Span) (line : Nat) : Prop where
  start_le : s.start ≤ s.stop
  stop_le : s.stop ≤ text.length
  line_eq : line = lineAt text s.start

theorem Located.start_add_length {text : List Char} {s : Span} {line : Nat}
    (h : Located text s line) : s.start + s.length = s.stop :=
  Nat.add_sub_cancel' h.start_le

/-- The text that is left after a move to offset `p` of `new`, which fails beyond the end. -/
def textAfterMove (text new : List Char) (p : Nat) : List Char :=
  if p ≤ new.length then new else text

/-! ## Cursors -/

namespace Cursor

/-- `Exact text c`: the cursor `c` stands in `text`, at its offset, on the line of that offset. -/
structure Exact (text : List Char) (c : Cursor) : Prop where
  pos_le : c.pos ≤ text.length
  line_eq : c.line = lineAt text c.pos
  rest_eq : c.rest = text.drop c.pos

variable {text : List Char} {c : Cursor}

theorem exact_ofText (text : List Char) : Exact text (ofText text) := ⟨Nat.zero_le _, rfl, rfl⟩

/-- A cursor that went past some of what lay ahead of it counted the line ends in it. -/
theorem Exact.past (h : Exact text c) {read rest : List Char} (ahead : c.rest = read ++ rest) :
    Exact text (c.past read rest) := by
  have cut : text.drop c.pos = read ++ rest := h.rest_eq.symm.trans ahead
  refine ⟨?_, ?_, ?_⟩
  · have := congrArg List.length cut
    have := h.pos_le
    simp only [List.length_drop, List.length_append, pos_past] at *
    omega
  · rw [line_past, pos_past, h.line_eq, lineAt, lineAt, List.take_add, cut, List.take_left,
      List.count_append]
  · rw [rest_past, pos_past, ← List.drop_drop, cut, List.drop_left]

/-- What is scanned ahead of an exact cursor stands in the text: first the trivia. -/
theorem Exact.drop_trivia (h : Exact text c) :
    text.drop (c.pos + (Scan.ofText c.rest).trivia.length) =
      (Scan.ofText c.rest).lexeme ++ (Scan.ofText c.rest).rest :=
  (h.past (Scan.append_ofText c.rest).symm).rest_eq.symm

/-- Then the lexeme. -/
theorem Exact.drop_lexeme (h : Exact text c) :
    text.drop (c.pos + (Scan.ofText c.rest).trivia.length + (Scan.ofText c.rest).lexeme.length) =
      (Scan.ofText c.rest).rest :=
  ((h.past (Scan.append_ofText c.rest).symm).past (rest_past c _ _)).rest_eq.symm

theorem Exact.next (h : Exact text c) : Exact text c.next.2 := by
  rw [Cursor.next]
  split
  next => exact h
  next x r ahead =>
    have front : c.rest = [x] ++ r := ahead
    exact h.past front

/-- A move that succeeds leads to the offset asked for, and it succeeds up to the end of the
text. -/
theorem at?_eq (new : List Char) (p : Nat) :
    at? new p = if p ≤ new.length then .ok ⟨p, lineAt new p, new.drop p⟩
      else .error ⟨p, new.length⟩ := by
  rw [at?]
  by_cases h : p ≤ new.length
  · rw [if_pos h, if_neg (Nat.not_lt.mpr h)]
    rfl
  · rw [if_neg h, if_pos (Nat.not_le.mp h)]

/-- The text that a cursor is in after a step. -/
def Step.textAfter (text : List Char) : Step → List Char
  | .reset new p => textAfterMove text new p
  | .peek _ | .next => text

/-- The texts that a cursor is in after each step of a history. -/
def textsAfter (text : List Char) : List Step → List (List Char)
  | [] => []
  | s :: ss => s.textAfter text :: textsAfter (s.textAfter text) ss

theorem exact_perform (h : Exact text c) (s : Step) :
    Exact (s.textAfter text) (c.perform s).2 := by
  cases s with
  | peek k => exact h
  | next => exact h.next
  | reset new p =>
    rw [perform, at?_eq, Step.textAfter, textAfterMove]
    split
    next le => exact ⟨le, rfl, rfl⟩
    -- a move that fails leaves the cursor in the text that it was in
    next => exact h

/-- A cursor is exact at first and after each step of a history. -/
theorem Exact.run (h : Exact text c) (ss : List Step) :
    List.Forall₂ Exact (text :: textsAfter text ss) (c :: (c.run ss).map Prod.snd) := by
  induction ss generalizing text c with
  | nil => exact .cons h .nil
  | cons s ss ih => exact .cons h (ih (exact_perform h s))

end Cursor

/-! ## Lexers -/

namespace Lexer

/-- `Exact text l`: the cursor of `l` is exact in `text`, and so are the place of what was last
delivered and of what was looked ahead to. -/
structure Exact (text : List Char) (l : Lexer) : Prop where
  cursor : l.cursor.Exact text
  last : Located text l.lastSpan l.lastLine
  ahead : ∀ a ∈ l.ahead, Located text a.span a.line

variable {text : List Char} {l : Lexer}

theorem exact_ofText (text : List Char) : Exact text (ofText text) :=
  ⟨Cursor.exact_ofText text, ⟨Nat.le_refl _, Nat.zero_le _, rfl⟩, fun _ h ↦ nomatch h⟩

theorem Exact.currentLine_eq (h : Exact text l) : l.currentLine = lineAt text l.cursor.pos :=
  h.cursor.line_eq

/-- Looking ahead of an exact cursor finds a place within the text, and leaves an exact cursor. -/
theorem exact_lookAt {c : Cursor} (h : c.Exact text) :
    Located text (lookAt c).1.span (lookAt c).1.line ∧ (lookAt c).2.Exact text := by
  -- the line is noted between the trivia and the lexeme, where the place starts
  have start := h.past (Scan.append_ofText c.rest).symm
  have stop := start.past (Cursor.rest_past _ _ _)
  exact ⟨⟨Nat.le_add_right _ _, stop.pos_le, start.line_eq⟩, stop⟩

theorem Exact.fill (h : Exact text l) :
    Located text l.fill.1.span l.fill.1.line ∧ Exact text l.fill.2 := by
  rw [Lexer.fill]
  cases ahead : l.ahead with
  -- what was looked ahead to before was found in the same text
  | some a => exact ⟨h.ahead a ahead, h⟩
  | none =>
    obtain ⟨found, beyond⟩ := exact_lookAt h.cursor
    refine ⟨found, beyond, h.last, ?_⟩
    rintro a ⟨⟩
    exact found

theorem Exact.next (h : Exact text l) : Exact text l.next.2 := by
  obtain ⟨found, after⟩ := h.fill
  exact ⟨after.cursor, found, fun _ h ↦ nomatch h⟩

theorem Exact.take (h : Exact text l) (n : Nat) : Exact text (l.take n).2 := by
  fun_induction Lexer.take n l with
  | case1 l => exact h
  | case2 l n _ => exact h
  | case3 l n _ _ ih => exact ih h.next
  | case4 l n _ t _ ih => exact ih h.next

theorem Exact.drain (h : Exact text l) : Exact text l.drain.2 := by
  fun_induction Lexer.drain l with
  | case1 l _ => exact h
  | case2 l _ _ ih => exact ih h.next
  | case3 l _ t _ ih => exact ih h.next

/-- The text that a lexer is in after a step. -/
def Step.textAfter (text : List Char) : Step → List Char
  | .reset new p => textAfterMove text new p
  | .peek | .next | .take _ | .drain => text

/-- The texts that a lexer is in after each step of a history. -/
def textsAfter (text : List Char) : List Step → List (List Char)
  | [] => []
  | s :: ss => s.textAfter text :: textsAfter (s.textAfter text) ss

theorem exact_perform (h : Exact text l) (s : Step) :
    Exact (s.textAfter text) (l.perform s).2 := by
  cases s with
  | peek => exact h.fill.2
  | next => exact h.next
  | take n => exact h.take n
  | drain => exact h.drain
  | reset new p =>
    rw [perform, Lexer.at?, Cursor.at?_eq, Step.textAfter, textAfterMove]
    by_cases le : p ≤ new.length
    · simp only [if_pos le]
      exact ⟨⟨le, rfl, rfl⟩, ⟨Nat.le_refl _, le, rfl⟩, fun _ h ↦ nomatch h⟩
    · simp only [if_neg le]
      exact h

/-- A lexer is exact at first and after each step of a history. -/
theorem Exact.run (h : Exact text l) (ss : List Step) :
    List.Forall₂ Exact (text :: textsAfter text ss) (l :: (l.run ss).map Prod.snd) := by
  induction ss generalizing text l with
  | nil => exact .cons h .nil
  | cons s ss ih => exact .cons h (ih (exact_perform h s))

/-- **Exact positions.**  Whatever is done with a lexer, at first and after each step the span last
delivered lies within the current text, with its length, the line last delivered is that of its
start, the current line is that of the cursor, and the cursor does not stand beyond the end.  The
same is true of the offset and line of a cursor by itself. -/
theorem exact_run (text : List Char) :
    (∀ ss, List.Forall₂
      (fun t (l : Lexer) ↦
        (l.lastSpan.start ≤ l.lastSpan.stop ∧ l.lastSpan.stop ≤ t.length ∧
          l.lastSpan.start + l.lastSpan.length = l.lastSpan.stop) ∧
        l.lastLine = (t.take l.lastSpan.start).count '\n' ∧
        l.currentLine = (t.take l.cursor.pos).count '\n' ∧ l.cursor.pos ≤ t.length)
      (text :: textsAfter text ss) (ofText text :: ((ofText text).run ss).map Prod.snd)) ∧
    ∀ ss, List.Forall₂
      (fun t (c : Cursor) ↦ c.line = (t.take c.pos).count '\n' ∧ c.pos ≤ t.length)
      (text :: Cursor.textsAfter text ss)
      (Cursor.ofText text :: ((Cursor.ofText text).run ss).map Prod.snd) := by
  refine ⟨fun ss ↦ ?_, fun ss ↦ ?_⟩
  · refine List.Forall₂.imp (fun t l h ↦ ?_) ((exact_ofText text).run ss)
    exact ⟨⟨h.last.start_le, h.last.stop_le, h.last.start_add_length⟩, h.last.line_eq,
      h.currentLine_eq, h.cursor.pos_le⟩
  · refine List.Forall₂.imp (fun t c h ↦ ?_) ((Cursor.exact_ofText text).run ss)
    exact ⟨h.line_eq, h.pos_le⟩

end Lexer

end ShaderChannels
