import ShaderChannels.Source.Lexer

/-!
# Histories

Everything that can be done with a cursor or a lexer, as data, so that a whole course of use can be
replayed and spoken about.  A move to another text either succeeds and forgets all that went before,
or fails and changes nothing.
-/

namespace ShaderChannels

/-- What can be done with a cursor. -/
inductive Cursor.Step where
  /-- Look `k` places ahead. -/
  | peek (k : Nat)
  /-- Step over one character. -/
  | next
  /-- Move to an offset of a text. -/
  | reset (text : List Char) (position : Nat)
deriving DecidableEq

/-- What a step of a cursor shows. -/
inductive Cursor.Answer where
  | char (c : Char)
  | moved
  | refused (e : OutOfRange)
deriving DecidableEq

/-- Performs one step. -/
def Cursor.perform (c : Cursor) : Cursor.Step → Cursor.Answer × Cursor
  | .peek k => (.char (c.peek k), c)
  | .next => (.char c.next.1, c.next.2)
  | .reset text p =>
    match Cursor.at? text p with
    | .ok d => (.moved, d)
    | .error e => (.refused e, c)

/-- Performs steps one after the other and keeps, for each, the answer and the cursor after it. -/
def Cursor.run (c : Cursor) : List Cursor.Step → List (Cursor.Answer × Cursor)
  | [] => []
  | s :: ss => c.perform s :: (c.perform s).2.run ss

/-- What can be done with a lexer. -/
inductive Lexer.Step where
  /-- Show what comes next. -/
  | peek
  /-- Deliver what comes next. -/
  | next
  /-- Deliver up to `n` tokens. -/
  | take (n : Nat)
  /-- Deliver all tokens left. -/
  | drain
  /-- Move to an offset of a text. -/
  | reset (text : List Char) (position : Nat)
deriving DecidableEq

/-- What a step of a lexer shows. -/
inductive Lexer.Answer where
  | token (t : Option Token)
  | tokens (ts : List Placed)
  | moved
  | refused (e : OutOfRange)
deriving DecidableEq

/-- Performs one step. -/
def Lexer.perform (l : Lexer) : Lexer.Step → Lexer.Answer × Lexer
  | .peek => l.peek.map .token id
  | .next => l.next.map .token id
  | .take n => (l.take n).map .tokens id
  | .drain => l.drain.map .tokens id
  | .reset text p =>
    match Lexer.at? text p with
    | .ok m => (.moved, m)
    | .error e => (.refused e, l)

/-- Performs steps one after the other and keeps, for each, the answer and the lexer after it. -/
def Lexer.run (l : Lexer) : List Lexer.Step → List (Lexer.Answer × Lexer)
  | [] => []
  | s :: ss => l.perform s :: (l.perform s).2.run ss

/-- Every step answers. -/
@[simp] theorem Cursor.length_run (c : Cursor) (ss : List Cursor.Step) :
    (c.run ss).length = ss.length := by
  induction ss generalizing c with
  | nil => rfl
  | cons s ss ih => simp [run, ih]

/-- Every step answers. -/
@[simp] theorem Lexer.length_run (l : Lexer) (ss : List Lexer.Step) :
    (l.run ss).length = ss.length := by
  induction ss generalizing l with
  | nil => rfl
  | cons s ss ih => simp [run, ih]

end ShaderChannels
