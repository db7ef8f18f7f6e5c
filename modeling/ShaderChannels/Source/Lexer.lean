import ShaderChannels.Source.Cursor
import ShaderChannels.Source.Token
import ShaderChannels.Source.Trivia

/-!
# Lexers

A lexer hands out the tokens of a text one by one.  `scan` says what stands at a place: trivia, a
lexeme, its token.  The lexer adds a cursor and one lexeme of lookahead, so that `peek` shows what
the following `next` delivers.  A step that meets a `#` word of no preview directive delivers
nothing although the text goes on; `take` and `drain` step over it.
-/

namespace ShaderChannels

/-- What stands at the front of a text. -/
structure Scan where
  /-- Trivia before the lexeme. -/
  trivia : List Char
  /-- The lexeme; empty only at the end of the text. -/
  lexeme : List Char
  /-- What follows the lexeme. -/
  rest : List Char

namespace Scan

/-- Scans the front of a text. -/
def ofText (cs : List Char) : Scan :=
  let (trivia, code) := Trivia.split cs
  let (lexeme, rest) := Lexeme.split code
  ⟨trivia, lexeme, rest⟩

/-- The token of the lexeme. -/
def token? (s : Scan) : Option Token := Token.ofLexeme? s.lexeme

/-- Nothing of the text is lost. -/
theorem append_ofText (cs : List Char) :
    (ofText cs).trivia ++ ((ofText cs).lexeme ++ (ofText cs).rest) = cs := by
  simp [ofText, Lexeme.split_append, Trivia.split_append]

end Scan

/-- What a lexer looked ahead to. -/
structure Lookahead where
  /-- The token, or nothing at a skipped `#` word or at the end. -/
  token? : Option Token
  /-- Where the lexeme stands. -/
  span : Span
  /-- Line the lexeme starts on. -/
  line : Nat
deriving DecidableEq, Inhabited

/-- A place in a text from which tokens are handed out. -/
structure Lexer where
  /-- The place after everything read, lookahead included. -/
  cursor : Cursor
  /-- What was looked ahead to and not yet delivered. -/
  ahead : Option Lookahead
  /-- Where the last delivered lexeme stands. -/
  lastSpan : Span
  /-- Line the last delivered lexeme starts on. -/
  lastLine : Nat
deriving DecidableEq, Inhabited

/-- A delivered token and where it stands. -/
structure Placed where
  token : Token
  span : Span
deriving DecidableEq, Inhabited

namespace Lexer

/-- A lexer before the first character of `text`. -/
def ofText (text : List Char) : Lexer := ⟨.ofText text, none, .empty 0, 0⟩

/-- A lexer at offset `p` of `text`. -/
def at? (text : List Char) (p : Nat) : Except OutOfRange Lexer :=
  match Cursor.at? text p with
  | .ok c => .ok ⟨c, none, .empty p, c.line⟩
  | .error e => .error e

/-- Nothing more will be delivered. -/
def atEnd (l : Lexer) : Bool :=
  match l.ahead with
  | some ⟨some _, _, _⟩ => false
  | _ => l.cursor.atEnd

/-- Line of the place reached, lookahead included. -/
def currentLine (l : Lexer) : Nat := l.cursor.line

/-- What lies ahead of a cursor, and the cursor after it. -/
def lookAt (c : Cursor) : Lookahead × Cursor :=
  let s := Scan.ofText c.rest
  let start := c.past s.trivia (s.lexeme ++ s.rest)
  let stop := start.past s.lexeme s.rest
  (⟨s.token?, ⟨start.pos, stop.pos⟩, start.line⟩, stop)

theorem stop_lookAt (c : Cursor) :
    (lookAt c).1.span.stop =
      c.pos + (Scan.ofText c.rest).trivia.length + (Scan.ofText c.rest).lexeme.length := rfl

theorem rest_lookAt (c : Cursor) : (lookAt c).2.rest = (Scan.ofText c.rest).rest := rfl

/-- A lookahead ends where the cursor after it stands. -/
theorem pos_lookAt (c : Cursor) : (lookAt c).2.pos = (lookAt c).1.span.stop := rfl

/-- Looks ahead unless that has been done. -/
def fill (l : Lexer) : Lookahead × Lexer :=
  match l.ahead with
  | some a => (a, l)
  | none =>
    let (a, c) := lookAt l.cursor
    (a, { l with cursor := c, ahead := some a })

/-- Shows what the next step delivers. -/
def peek (l : Lexer) : Option Token × Lexer := (l.fill.1.token?, l.fill.2)

/-- Delivers the next token, or nothing for a skipped `#` word and at the end. -/
def next (l : Lexer) : Option Token × Lexer :=
  let (a, l) := l.fill
  (a.token?, ⟨l.cursor, none, a.span, a.line⟩)

/-- A step leaves nothing looked ahead to. -/
@[simp] theorem ahead_next (l : Lexer) : l.next.2.ahead = none := rfl

/-- Where nothing was looked ahead to, a step delivers what lies ahead of the cursor. -/
theorem next_of_ahead {l : Lexer} (h : l.ahead = none) :
    l.next = ((lookAt l.cursor).1.token?,
      ⟨(lookAt l.cursor).2, none, (lookAt l.cursor).1.span, (lookAt l.cursor).1.line⟩) := by
  simp [next, fill, h]

/-- Where nothing was looked ahead to, the end is the end of the text. -/
theorem atEnd_of_ahead {l : Lexer} (h : l.ahead = none) : l.atEnd = l.cursor.rest.isEmpty := by
  simp [atEnd, Cursor.atEnd, h]

/-- An upper bound on the steps left: three for each character ahead, and up to two for what was
looked ahead to. -/
def work (l : Lexer) : Nat :=
  3 * l.cursor.rest.length +
    match l.ahead with
    | none => 0
    | some ⟨none, _, _⟩ => 1
    | some ⟨some _, _, _⟩ => 2

/-- Looking ahead before the end of the text takes in at least one character. -/
theorem length_rest_lookAt {c : Cursor} (h : c.rest ≠ []) :
    (lookAt c).2.rest.length < c.rest.length := by
  have key := congrArg List.length (Scan.append_ofText c.rest)
  have pos : (Scan.ofText c.rest).trivia ++ (Scan.ofText c.rest).lexeme ≠ [] := by
    intro empty
    obtain ⟨ht, hl⟩ := List.append_eq_nil_iff.mp empty
    have whole := Trivia.split_append c.rest
    simp only [Scan.ofText] at ht hl
    rw [ht, List.nil_append] at whole
    exact Lexeme.split_ne_nil (by rwa [whole]) hl
  have := List.length_pos_iff.mpr pos
  simp only [lookAt, Cursor.rest_past, List.length_append] at *
  omega

/-- Every step before the end leaves less work. -/
theorem work_next_lt {l : Lexer} (h : l.atEnd = false) : l.next.2.work < l.work := by
  obtain ⟨c, ahead, s, n⟩ := l
  cases ahead with
  | some a => cases a with | mk t _ _ => cases t <;> simp [next, fill, work]
  | none =>
    have : c.rest ≠ [] := by simpa [atEnd, Cursor.atEnd] using h
    have := length_rest_lookAt this
    simp [next, fill, work]
    omega

/-- A lexer that shows a token is not at the end. -/
theorem atEnd_peek {l : Lexer} (h : l.peek.1.isSome) : l.peek.2.atEnd = false := by
  obtain ⟨c, ahead, s, n⟩ := l
  cases ahead with
  | some a =>
    cases a with | mk t _ _ =>
    cases t with
    | none => simp [peek, fill] at h
    | some => rfl
  | none =>
    obtain ⟨t, ht⟩ := Option.isSome_iff_exists.mp h
    simp only [peek, fill] at ht ⊢
    cases hc : lookAt c with | mk a d =>
    cases a with | mk u _ _ =>
    rw [hc] at ht
    simp only at ht
    subst ht
    rfl

/-- Looking ahead costs at most two steps, and one at the end of the text. -/
theorem work_peek_le (c : Cursor) (s : Span) (n : Nat) :
    (peek ⟨c, none, s, n⟩).2.work ≤ 3 * c.rest.length + 1 := by
  by_cases h : c.rest = []
  · simp [peek, fill, work, lookAt, Scan.ofText, Scan.token?, Trivia.split, Trivia.splitFrom,
      Lexeme.split, Token.ofLexeme?, h]
  · have := length_rest_lookAt h
    simp only [peek, fill, work]
    split <;> omega

/-- Looking ahead after a step before the end leaves less work than before the step. -/
theorem work_peek_next_lt {l : Lexer} (h : l.atEnd = false) : l.next.2.peek.2.work < l.work := by
  obtain ⟨c, ahead, s, n⟩ := l
  cases ahead with
  | some a =>
    have := work_peek_le c a.span a.line
    cases a with | mk t p m =>
    cases t with
    | some t => simp only [next, fill, work] at *; omega
    | none =>
      have ne : c.rest ≠ [] := by simpa [atEnd, Cursor.atEnd] using h
      have := length_rest_lookAt ne
      simp only [next, fill, work, peek] at *
      split <;> omega
  | none =>
    have := length_rest_lookAt (c := c) (by simpa [atEnd, Cursor.atEnd] using h)
    have := work_peek_le (lookAt c).2 (lookAt c).1.span (lookAt c).1.line
    simp only [next, fill, work] at *
    omega

/-- All that is still delivered, empty steps included, each with the lexer after it. -/
def deliveries (l : Lexer) : List (Option Token × Lexer) :=
  if l.atEnd then [] else l.next :: deliveries l.next.2
termination_by l.work
decreasing_by exact work_next_lt (Bool.eq_false_iff.mpr ‹_›)

/-- Delivers up to `n` tokens, stepping over what delivers nothing. -/
def take (n : Nat) (l : Lexer) : List Placed × Lexer :=
  match n with
  | 0 => ([], l)
  | n + 1 =>
    if l.atEnd then ([], l)
    else match l.next.1 with
      | none => take (n + 1) l.next.2
      | some t => (take n l.next.2).map (⟨t, l.next.2.lastSpan⟩ :: ·) id
termination_by l.work
decreasing_by all_goals exact work_next_lt (Bool.eq_false_iff.mpr ‹_›)

/-- Delivers all tokens left, stepping over what delivers nothing. -/
def drain (l : Lexer) : List Placed × Lexer :=
  if l.atEnd then ([], l)
  else match l.next.1 with
    | none => drain l.next.2
    | some t => (drain l.next.2).map (⟨t, l.next.2.lastSpan⟩ :: ·) id
termination_by l.work
decreasing_by all_goals exact work_next_lt (Bool.eq_false_iff.mpr ‹_›)

end Lexer

end ShaderChannels
