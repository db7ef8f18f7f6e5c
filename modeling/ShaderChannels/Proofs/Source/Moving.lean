import ShaderChannels.Proofs.Source.Resumption

/-!
# Moves

A move to a place of a text that exists forgets all that went before it, and a move to a place that
does not exist changes nothing.  Both are said of what can be seen of a lexer, in whatever course of
steps comes after the move: each answer, whether the end is reached, where the last lexeme stood and
on which line, and the current line.

* `Lexer.course` — what is seen of a lexer in a course of steps.
* `Lexer.perform_shift` — each step but a move shows the same with more characters behind the lexer,
  places aside.
* `Lexer.course_shift` — and so does every course, up to the first move in it.
* `Lexer.move_forgets_or_keeps` — a lexer that is moved is seen as one that is new on what is left of
  the text, and one that cannot be moved is seen as before.
-/

namespace ShaderChannels

/-- The token at its place with `p` characters more before it. -/
def Placed.shift (p : Nat) (t : Placed) : Placed := ⟨t.token, t.span.shift p⟩

namespace Lexer

/-! ## What is seen -/

/-- How a lexer stands. -/
structure View where
  /-- Whether the end is reached. -/
  atEnd : Bool
  /-- Where the last delivered lexeme stands. -/
  lastSpan : Span
  /-- Line the last delivered lexeme starts on. -/
  lastLine : Nat
  /-- Line of the place reached. -/
  currentLine : Nat
deriving DecidableEq

/-- How the lexer stands, as far as it can be seen. -/
def view (l : Lexer) : View := ⟨l.atEnd, l.lastSpan, l.lastLine, l.currentLine⟩

/-- What is seen of a lexer in a course of steps: each answer, and how the lexer stands after it. -/
def course (l : Lexer) (ss : List Step) : List (Answer × View) := (l.run ss).map (.map id view)

/-- The lexer after a course of steps. -/
def after (l : Lexer) (ss : List Step) : Lexer := ss.foldl (fun l s ↦ (l.perform s).2) l

theorem course_cons (l : Lexer) (s : Step) (ss : List Step) :
    l.course (s :: ss) =
      ((l.perform s).1, (l.perform s).2.view) :: (l.perform s).2.course ss := rfl

/-- What is seen with `p` characters and `n` line ends more behind the lexer. -/
def View.shift (p n : Nat) (v : View) : View :=
  ⟨v.atEnd, v.lastSpan.shift p, v.lastLine + n, v.currentLine + n⟩

/-- The answer with `p` characters more before the tokens in it. -/
def Answer.shift (p : Nat) : Answer → Answer
  | .tokens ps => .tokens (ps.map (.shift p))
  | .token t => .token t
  | .moved => .moved
  | .refused e => .refused e

/-- What is seen in a course with `p` characters and `n` line ends more behind the lexer.  After a
move they do not matter any more. -/
def shiftCourse (p n : Nat) : List (Answer × View) → List (Answer × View)
  | [] => []
  | (.moved, v) :: seen => (.moved, v) :: seen
  | (a, v) :: seen => (a.shift p, v.shift p n) :: shiftCourse p n seen

theorem shiftCourse_cons {a : Answer} (stays : a ≠ .moved) (p n : Nat) (v : View)
    (seen : List (Answer × View)) :
    shiftCourse p n ((a, v) :: seen) = (a.shift p, v.shift p n) :: shiftCourse p n seen := by
  cases a with
  | moved => exact absurd rfl stays
  | token => rfl
  | tokens => rfl
  | refused => rfl

/-! ## Steps with more behind -/

section Shift

variable (p n : Nat)

theorem view_shift (l : Lexer) : (l.shift p n).view = l.view.shift p n := by
  rw [view, atEnd_shift]
  rfl

theorem peek_shift (l : Lexer) : (l.shift p n).peek = l.peek.map id (.shift p n) := by
  simp only [peek, fill_shift]
  rfl

theorem take_shift (k : Nat) (l : Lexer) :
    (l.shift p n).take k = (l.take k).map (.map (.shift p)) (.shift p n) := by
  fun_induction take k l with
  | case1 l => rw [take]; rfl
  | case2 l k ended =>
    rw [take, if_pos (by rwa [atEnd_shift])]
    rfl
  | case3 l k before nothing ih =>
    rw [take_succ (by rwa [atEnd_shift]), next_shift]
    simp only [Prod.map_fst, Prod.map_snd, id, nothing, ih]
  | case4 l k before t found ih =>
    rw [take_succ (by rwa [atEnd_shift]), next_shift]
    simp only [Prod.map_fst, Prod.map_snd, id, found, ih]
    rfl

theorem drain_shift (l : Lexer) :
    (l.shift p n).drain = l.drain.map (.map (.shift p)) (.shift p n) := by
  fun_induction drain l with
  | case1 l ended =>
    rw [drain, if_pos (by rwa [atEnd_shift])]
    rfl
  | case2 l before nothing ih =>
    rw [drain_of_not_atEnd (by rwa [atEnd_shift]), next_shift]
    simp only [Prod.map_fst, Prod.map_snd, id, nothing, ih]
  | case3 l before t found ih =>
    rw [drain_of_not_atEnd (by rwa [atEnd_shift]), next_shift]
    simp only [Prod.map_fst, Prod.map_snd, id, found, ih]
    rfl

/-- A step that does not move shows the same whatever lies behind the lexer, places aside. -/
theorem perform_shift (l : Lexer) {s : Step} (stays : s.isReset = false) :
    (l.shift p n).perform s = (l.perform s).map (.shift p) (.shift p n) := by
  cases s with
  | peek => rw [perform, peek_shift]; rfl
  | next => rw [perform, next_shift]; rfl
  | take k => rw [perform, take_shift]; rfl
  | drain => rw [perform, drain_shift]; rfl
  | reset => exact absurd stays (by simp [Step.isReset])

/-- A step that does not move is not answered with a move. -/
theorem answer_ne_moved (l : Lexer) {s : Step} (stays : s.isReset = false) :
    (l.perform s).1 ≠ .moved := by
  cases s with
  | reset => exact absurd stays (by simp [Step.isReset])
  | _ => exact Answer.noConfusion

/-- A move beyond the end of its text is refused and changes nothing. -/
theorem perform_reset_of_lt (l : Lexer) {text : List Char} {q : Nat} (h : text.length < q) :
    l.perform (.reset text q) = (.refused ⟨q, text.length⟩, l) := by
  simp only [perform, Lexer.at?, Cursor.at?_eq, if_neg (Nat.not_le.mpr h)]

/-- Every course shows the same whatever lies behind the lexer, places aside, up to the first move
that succeeds; from there on it shows the same. -/
theorem course_shift (l : Lexer) (ss : List Step) :
    (l.shift p n).course ss = shiftCourse p n (l.course ss) := by
  induction ss generalizing l with
  | nil => rfl
  | cons s ss ih =>
    rw [course_cons, course_cons]
    by_cases stays : s.isReset = false
    · rw [perform_shift p n l stays, shiftCourse_cons (answer_ne_moved l stays)]
      simp only [Prod.map_fst, Prod.map_snd, view_shift, ih]
    · cases s with
      | reset text q =>
        by_cases inside : q ≤ text.length
        · rw [perform_reset l inside, perform_reset _ inside]
          rfl
        · have beyond := Nat.not_le.mp inside
          rw [perform_reset_of_lt l beyond, perform_reset_of_lt _ beyond,
            shiftCourse_cons (by exact Answer.noConfusion), view_shift, ih]
          rfl
      | _ => exact absurd rfl stays

end Shift

/-- **Moves.**  After any history, a move to a place of a text succeeds, and then the lexer is seen,
now and in whatever course comes after that, as one that has done nothing but move there, which is
how a new lexer on the rest of the text is seen, with what lies before the place added to its places.
A move beyond the end of a text is refused with that place and the length of the text, and the lexer
is seen, now and in whatever course, as it would be without it. -/
theorem move_forgets_or_keeps (text₀ : List Char) (history : List Step) (text : List Char)
    (p : Nat) :
    let l := (ofText text₀).after history
    let r := l.perform (.reset text p)
    let empty := ((ofText []).perform (.reset text p)).2
    let rest := ofText (text.drop p)
    let lines := (text.take p).count '\n'
    (p ≤ text.length →
        r.1 = .moved ∧ (r.2.view = empty.view ∧ ∀ ss, r.2.course ss = empty.course ss) ∧
        r.2.view = rest.view.shift p lines ∧
        ∀ ss, r.2.course ss = shiftCourse p lines (rest.course ss)) ∧
      (text.length < p →
        r.1 = .refused ⟨p, text.length⟩ ∧ r.2.view = l.view ∧
        ∀ ss, r.2.course ss = l.course ss) := by
  intro l r empty rest lines
  constructor
  · intro inside
    have moved : r = (.moved, rest.shift p lines) := perform_reset l inside
    have same : empty = rest.shift p lines := congrArg Prod.snd (perform_reset _ inside)
    rw [moved, same]
    exact ⟨rfl, ⟨rfl, fun _ ↦ rfl⟩, view_shift p lines rest, course_shift p lines rest⟩
  · intro beyond
    have refused : r = (.refused ⟨p, text.length⟩, l) := perform_reset_of_lt l beyond
    rw [refused]
    exact ⟨rfl, rfl, fun _ ↦ rfl⟩

/-- With a token looked ahead to, a move that succeeds drops the token and one that is refused keeps
it. -/
theorem move_forgets_or_keeps_ahead :
    let l := (ofText "a b".toList).after [.peek]
    let text := "x\ny".toList
    l.ahead.isSome = true ∧ 2 ≤ text.length ∧ text.length < 4 ∧
      (l.perform (.reset text 2)).2.course [.next] =
        [(.token (some ⟨.identifier, .text "y"⟩), ⟨true, ⟨2, 3⟩, 1, 1⟩)] ∧
      (l.perform (.reset text 4)).1 = .refused ⟨4, 3⟩ ∧
      (l.perform (.reset text 4)).2.course [.next] =
        [(.token (some ⟨.identifier, .text "a"⟩), ⟨false, ⟨0, 1⟩, 0, 0⟩)] := by
  intro l text
  have inside : 2 ≤ text.length := by decide
  have beyond : text.length < 4 := by decide
  obtain ⟨-, -, -, course⟩ := (move_forgets_or_keeps "a b".toList [.peek] text 2).1 inside
  obtain ⟨refused, -, kept⟩ := (move_forgets_or_keeps "a b".toList [.peek] text 4).2 beyond
  refine ⟨by decide, inside, beyond, (course _).trans ?_, refused, (kept _).trans ?_⟩
  · decide +kernel
  · decide +kernel

end Lexer

end ShaderChannels
