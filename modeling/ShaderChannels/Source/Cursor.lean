/-!
# Cursors

A cursor is a place in a text.  It carries what lies ahead of it together with the number of
characters and of line ends that lie behind it, so that every place can be named by an offset and a
line.  Offsets count characters, never bytes, and lines start at zero.
-/

namespace ShaderChannels

/-- What a cursor shows past the end of its text. -/
def endMark : Char := '\x00'

/-- A stretch of characters, from `start` up to but without `stop`. -/
structure Span where
  /-- Offset of the first character. -/
  start : Nat
  /-- Offset after the last character. -/
  stop : Nat
deriving DecidableEq, Inhabited

namespace Span

/-- The empty span at an offset. -/
def empty (p : Nat) : Span := ⟨p, p⟩

/-- Number of characters covered. -/
def length (s : Span) : Nat := s.stop - s.start

/-- A span is empty when it ends where it starts. -/
def isEmpty (s : Span) : Bool := s.start == s.stop

@[simp] theorem start_empty (p : Nat) : (empty p).start = p := rfl

@[simp] theorem stop_empty (p : Nat) : (empty p).stop = p := rfl

@[simp] theorem length_empty (p : Nat) : (empty p).length = 0 := Nat.sub_self p

end Span

/-- A place was asked for that lies outside its text. -/
structure OutOfRange where
  /-- The offset asked for. -/
  position : Nat
  /-- Number of characters of the text. -/
  length : Nat
deriving DecidableEq

/-- The wording of the error. -/
def OutOfRange.message (e : OutOfRange) : String :=
  s!"cursor offset {e.position} is outside source of {e.length} characters"

/-- A place in a text. -/
structure Cursor where
  /-- Number of characters behind the cursor. -/
  pos : Nat
  /-- Number of line ends behind the cursor. -/
  line : Nat
  /-- The characters ahead. -/
  rest : List Char
deriving DecidableEq, Inhabited

namespace Cursor

/-- The cursor before the first character of `text`. -/
def ofText (text : List Char) : Cursor := ⟨0, 0, text⟩

/-- The cursor at offset `p` of `text`, which may be its end but not beyond. -/
def at? (text : List Char) (p : Nat) : Except OutOfRange Cursor :=
  if text.length < p then .error ⟨p, text.length⟩
  else .ok ⟨p, (text.take p).count '\n', text.drop p⟩

/-- Nothing lies ahead. -/
def atEnd (c : Cursor) : Bool := c.rest.isEmpty

/-- Number of characters of the text the cursor is in. -/
def textLength (c : Cursor) : Nat := c.pos + c.rest.length

/-- The character `k` places ahead, or `endMark` past the end. -/
def peek (c : Cursor) (k : Nat) : Char := c.rest[k]?.getD endMark

/-- The cursor after `read`, where `read` followed by `rest` lies ahead of it. -/
def past (c : Cursor) (read rest : List Char) : Cursor :=
  ⟨c.pos + read.length, c.line + read.count '\n', rest⟩

/-- Steps over one character.  At the end it shows `endMark` and stays. -/
def next (c : Cursor) : Char × Cursor :=
  match c.rest with
  | [] => (endMark, c)
  | x :: r => (x, c.past [x] r)

@[simp] theorem pos_past (c : Cursor) (read rest : List Char) :
    (c.past read rest).pos = c.pos + read.length := rfl

@[simp] theorem line_past (c : Cursor) (read rest : List Char) :
    (c.past read rest).line = c.line + read.count '\n' := rfl

@[simp] theorem rest_past (c : Cursor) (read rest : List Char) :
    (c.past read rest).rest = rest := rfl

end Cursor

end ShaderChannels
