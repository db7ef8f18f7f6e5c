import ShaderChannels.Proofs.Source.Lookahead
import ShaderChannels.Proofs.Source.Position

/-!
# Resumption

What a lexer hands out depends on what lies ahead of it.  What lies behind it decides only which
numbers it gives to places: a lexer that has more characters behind it gives larger offsets and
lines, and is otherwise in step with one that starts there.

* `Lexer.shift` — a lexer with more characters and line ends behind it.
* `Lexer.next_shift`, `Lexer.deliveries_shift` — each step, and so all steps, commute with it.
* `Lexer.perform_reset` — a move leads to a shifted lexer on what is left of the text.
* `Lexer.next_reset` — a lexer goes on as one that is moved to where it stands.
* `Lexer.remaining_reset` — hence moving to a place and coming to it are the same.
-/

namespace ShaderChannels

/-! ## More behind -/

/-- The span with `p` characters more before it. -/
def Span.shift (p : Nat) (s : Span) : Span := ⟨s.start + p, s.stop + p⟩

/-- The cursor with `p` characters and `n` line ends more behind it. -/
def Cursor.shift (p n : Nat) (c : Cursor) : Cursor := ⟨c.pos + p, c.line + n, c.rest⟩

/-- What was looked ahead to, with `p` characters and `n` line ends more before it. -/
def Lookahead.shift (p n : Nat) (a : Lookahead) : Lookahead :=
  ⟨a.token?, a.span.shift p, a.line + n⟩

/-- The delivery with `p` characters and `n` line ends more before it. -/
def Delivery.shift (p n : Nat) (d : Delivery) : Delivery := ⟨d.token, d.span.shift p, d.line + n⟩

@[simp] theorem Cursor.rest_shift (p n : Nat) (c : Cursor) : (c.shift p n).rest = c.rest := rfl

theorem Cursor.past_shift (p n : Nat) (c : Cursor) (read rest : List Char) :
    (c.shift p n).past read rest = (c.past read rest).shift p n := by
  simp only [past, shift, Nat.add_right_comm]

namespace Lexer

/-- The lexer with `p` characters and `n` line ends more behind it. -/
def shift (p n : Nat) (l : Lexer) : Lexer :=
  ⟨l.cursor.shift p n, l.ahead.map (.shift p n), l.lastSpan.shift p, l.lastLine + n⟩

variable (p n : Nat)

@[simp] theorem atEnd_shift (l : Lexer) : (l.shift p n).atEnd = l.atEnd := by
  obtain ⟨c, ahead, s, k⟩ := l
  rcases ahead with _ | ⟨_ | t, _, _⟩ <;> rfl

/-- What lies ahead of a cursor is the same whatever lies behind it, places aside. -/
theorem lookAt_shift (c : Cursor) :
    lookAt (c.shift p n) = (lookAt c).map (.shift p n) (.shift p n) := by
  simp only [lookAt, Cursor.rest_shift, Cursor.past_shift]
  rfl

theorem fill_shift (l : Lexer) :
    (l.shift p n).fill = l.fill.map (.shift p n) (.shift p n) := by
  obtain ⟨c, ahead, s, k⟩ := l
  cases ahead with
  | some a => rfl
  | none =>
    simp only [fill, shift, Option.map_none, lookAt_shift]
    rfl

/-- A step delivers the same whatever lies behind, places aside. -/
theorem next_shift (l : Lexer) : (l.shift p n).next = l.next.map id (.shift p n) := by
  simp only [next, fill_shift]
  rfl

/-- All steps deliver the same whatever lies behind, places aside. -/
theorem deliveries_shift (l : Lexer) :
    (l.shift p n).deliveries = l.deliveries.map (.map id (.shift p n)) := by
  fun_induction deliveries l with
  | case1 l hend =>
    rw [deliveries, if_pos]
    · rfl
    · rwa [atEnd_shift]
  | case2 l before ih =>
    rw [deliveries, if_neg, next_shift, List.map_cons]
    · exact congrArg (_ :: ·) ih
    · rwa [atEnd_shift]

/-- The tokens still to come are the same whatever lies behind, places aside. -/
theorem remaining_shift (l : Lexer) :
    (l.shift p n).remaining = l.remaining.map (.shift p n) := by
  rw [remaining, remaining, deliveries_shift, List.filterMap_map, List.map_filterMap]
  congr 1
  funext r
  obtain ⟨t, m⟩ := r
  cases t <;> rfl

/-! ## Moving to a place -/

/-- A move within a text leads to what is left of the text from there on, with the part before it
behind. -/
theorem perform_reset (l : Lexer) {text : List Char} {p : Nat} (h : p ≤ text.length) :
    l.perform (.reset text p) = (.moved, (ofText (text.drop p)).shift p (lineAt text p)) := by
  simp only [perform, Lexer.at?, Cursor.at?_eq, if_pos h]
  simp [ofText, shift, Cursor.ofText, Cursor.shift, Span.shift, Span.empty]

/-- Lexers that stand at the same place, with nothing looked ahead to, go on in the same way. -/
theorem next_congr {l m : Lexer} (hl : l.ahead = none) (hm : m.ahead = none)
    (same : l.cursor = m.cursor) : l.next = m.next := by
  rw [next_of_ahead hl, next_of_ahead hm, same]

/-- A lexer that has nothing looked ahead to goes on as one that is moved to where it stands. -/
theorem next_reset (m : Lexer) {text : List Char} {l : Lexer} (h : Exact text l)
    (none : l.ahead = none) :
    (m.perform (.reset text l.cursor.pos)).2.next = l.next := by
  have moved := perform_reset m h.cursor.pos_le
  apply next_congr
  · rw [moved]
    rfl
  · exact none
  -- an exact cursor is determined by its offset
  · rw [moved, ← h.cursor.line_eq, ← h.cursor.rest_eq]
    simp [ofText, shift, Cursor.ofText, Cursor.shift]

/-- **Resumption.**  A lexer that is moved to a place of a text hands out what a lexer on the rest
of the text does, with the characters before that place added to offsets and the line ends before it
to lines.  And a lexer that comes to a place, in whatever way, hands out from there on what a lexer
that is moved there does, if it has looked no further. -/
theorem remaining_reset (l : Lexer) (text : List Char) :
    (∀ p, p ≤ text.length →
      (l.perform (.reset text p)).1 = .moved ∧
        (l.perform (.reset text p)).2.remaining =
          (ofText (text.drop p)).remaining.map (.shift p ((text.take p).count '\n'))) ∧
    ∀ ss, List.Forall₂
      (fun t (m : Lexer) ↦ m.ahead = none →
        (l.perform (.reset t m.cursor.pos)).1 = .moved ∧
          m.remaining = (l.perform (.reset t m.cursor.pos)).2.remaining)
      (text :: textsAfter text ss) (ofText text :: ((ofText text).run ss).map Prod.snd) := by
  constructor
  · intro p h
    rw [perform_reset l h]
    exact ⟨rfl, remaining_shift p _ _⟩
  · intro ss
    refine List.Forall₂.imp (fun t m h none ↦ ?_) ((exact_ofText text).run ss)
    have same := next_reset l h none
    constructor
    · rw [perform_reset l h.cursor.pos_le]
    · rw [remaining_eq m, remaining_eq (l.perform _).2, same]

/-- A lexer that is moved into a comment does not know of it, and one that came past the first word
reads the comment as such. -/
theorem remaining_reset_comment :
    let text := "a\n/* b */ 'c".toList
    let l := ofText []
    let m := (ofText text).peek.2.next.2
    5 ≤ text.length ∧
      (l.perform (.reset text 5)).2.remaining =
        [⟨⟨.identifier, .text "b"⟩, ⟨5, 6⟩, 1⟩, ⟨⟨.operator, .text "*"⟩, ⟨7, 8⟩, 1⟩,
          ⟨⟨.operator, .text "/"⟩, ⟨8, 9⟩, 1⟩, ⟨⟨.string, .text "c"⟩, ⟨10, 12⟩, 1⟩] ∧
      m.ahead = none ∧ m.cursor.pos = 1 ∧
      m.remaining = (l.perform (.reset text 1)).2.remaining := by
  intro text l m
  obtain ⟨moved, came⟩ := remaining_reset l text
  have inside : 5 ≤ text.length := by decide
  refine ⟨inside, ?_, rfl, rfl, ?_⟩
  · rw [(moved 5 inside).2]
    decide +kernel
  · cases came [.peek, .next] with
    | cons _ later =>
      cases later with
      | cons _ later =>
        cases later with
        | cons here _ => exact (here rfl).2

end Lexer

end ShaderChannels
