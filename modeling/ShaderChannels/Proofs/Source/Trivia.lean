import ShaderChannels.Proofs.Source.Stripped

/-!
# Runs of trivia

A gap may hold skipped words beside blanks and comments.  What is cut off before one lexeme holds
blanks and comments only, since a `#` is where trivia ends.

* `Trivia.Run` — blanks and comments, one after the other.
* `Filler.split_append` — a blank or a comment is cut off whole, and what follows it as if it stood
  at the start.
* `Trivia.run_split` — hence what is cut off before a lexeme is a run of them.
* `Scan.skips_or_trails` — a scan without a token finds one skipped word after such a run, or the end.
-/

namespace ShaderChannels

namespace Trivia

/-- `Run run rest`: the characters `run`, with `rest` after them, are blanks and comments, one after
the other. -/
inductive Run : List Char → List Char → Prop
  | /-- Nothing at all. -/
    nil {rest : List Char} : Run [] rest
  | /-- One more blank or comment in front. -/
    cons {piece run rest : List Char} :
      Filler piece (run ++ rest) → '#' ∉ piece.head? → Run run rest → Run (piece ++ run) rest

variable {body rest : List Char}

/-- A line comment is cut off up to and with its line end. -/
theorem splitFrom_line (fresh : '\n' ∉ body) (rest : List Char) :
    splitFrom .line (body ++ '\n' :: rest) = (split rest).map (body ++ '\n' :: ·) id := by
  induction body with
  | nil => rfl
  | cons c body ih =>
    rw [List.mem_cons, not_or] at fresh
    rw [List.cons_append, splitFrom, if_neg (Ne.symm fresh.1), ih fresh.2]
    rfl

/-- A line comment without a line end is cut off up to the end. -/
theorem splitFrom_lastLine (fresh : '\n' ∉ body) : splitFrom .line body = (body, []) := by
  induction body with
  | nil => rfl
  | cons c body ih =>
    rw [List.mem_cons, not_or] at fresh
    rw [splitFrom, if_neg (Ne.symm fresh.1), ih fresh.2]
    rfl

/-- A character of a block comment that does not close it is cut off. -/
theorem splitFrom_block_cons {c : Char} (goesOn : ¬ ['*', '/'] <+: c :: rest) :
    splitFrom .block (c :: rest) = (splitFrom .block rest).map (c :: ·) id := by
  rw [splitFrom]
  rintro r rfl rfl
  exact goesOn ⟨r, rfl⟩

/-- A block comment is cut off up to and with its closing marks. -/
theorem splitFrom_block (fresh : ¬ ['*', '/'] <:+: body ++ ['*']) (rest : List Char) :
    splitFrom .block (body ++ '*' :: '/' :: rest) =
      (split rest).map (body ++ '*' :: '/' :: ·) id := by
  induction body with
  | nil => rfl
  | cons c body ih =>
    rw [List.cons_append, List.infix_cons_iff, not_or] at fresh
    rw [List.cons_append, splitFrom_block_cons, ih fresh.2]
    · rfl
    -- the closing marks stand further on, so that this character is not the first of them
    · intro closed
      have front : c :: (body ++ ['*']) <+: c :: (body ++ '*' :: '/' :: rest) :=
        ⟨'/' :: rest, by simp⟩
      exact fresh.1 (List.prefix_of_prefix_length_le closed front (by simp))

/-- A block comment without closing marks is cut off up to the end. -/
theorem splitFrom_lastBlock (fresh : ¬ ['*', '/'] <:+: body) :
    splitFrom .block body = (body, []) := by
  induction body with
  | nil => rfl
  | cons c body ih =>
    rw [List.infix_cons_iff, not_or] at fresh
    rw [splitFrom_block_cons fresh.1, ih fresh.2]
    rfl

end Trivia

/-- A blank or comment in front of a text is cut off as trivia, and more trivia after it. -/
theorem Filler.split_append {piece rest : List Char} (h : Filler piece rest)
    (visible : '#' ∉ piece.head?) :
    Trivia.split (piece ++ rest) = (Trivia.split rest).map (piece ++ ·) id := by
  cases h with
  | @blank c _ hc =>
    have none : Trivia.OpensNone c rest := by
      rintro rfl
      exact absurd hc (by decide)
    have blank : Trivia.isBlank c := by simpa [Trivia.isBlank, or_assoc] using hc
    rw [List.singleton_append, Trivia.split_cons none, if_pos blank]
    rfl
  | @line body _ fresh =>
    have inner := Trivia.splitFrom_line fresh rest
    simp only [List.cons_append, List.append_assoc, List.nil_append, Trivia.split,
      Trivia.splitFrom] at inner ⊢
    rw [inner]
    rfl
  | lastLine fresh =>
    have inner := Trivia.splitFrom_lastLine fresh
    simp [Trivia.split, Trivia.splitFrom, inner]
  | @block body _ fresh =>
    have inner := Trivia.splitFrom_block fresh rest
    simp only [List.cons_append, List.append_assoc, List.nil_append, Trivia.split,
      Trivia.splitFrom] at inner ⊢
    rw [inner]
    rfl
  | lastBlock fresh =>
    have inner := Trivia.splitFrom_lastBlock fresh
    simp [Trivia.split, Trivia.splitFrom, inner]
  | directive => exact absurd rfl visible

namespace Trivia

/-- A gap that is cut off as trivia has no `#` word in it. -/
theorem Run.of_gap {gap rest : List Char} (h : Gap gap rest)
    (cut : split (gap ++ rest) = (gap, rest)) : Run gap rest := by
  induction h with
  | nil => exact .nil
  | @cons piece gap rest filler _ ih =>
    by_cases hash : '#' ∈ piece.head?
    · exfalso
      obtain ⟨word, rfl⟩ := List.head?_eq_some_iff.mp hash
      have stops : split ('#' :: (word ++ gap ++ rest)) = ([], '#' :: (word ++ gap ++ rest)) :=
        split_cons_eq_iff.mpr ⟨rfl, fun slash ↦ absurd slash (by decide)⟩
      exact List.cons_ne_nil _ _ (congrArg Prod.fst (cut.symm.trans stops))
    · rw [List.append_assoc, filler.split_append hash] at cut
      refine .cons filler hash (ih ?_)
      obtain ⟨front, behind⟩ := Prod.mk.inj cut
      exact Prod.ext (List.append_cancel_left front) behind

/-- What is cut off before a lexeme are blanks and comments only. -/
theorem run_split (cs : List Char) : Run (split cs).1 (split cs).2 := by
  apply Run.of_gap (gap_split cs)
  rw [split_append]

end Trivia

namespace Scan

variable {cs : List Char}

/-- Blanks and comments are all that stands before the lexeme of a scan. -/
theorem run_trivia (cs : List Char) :
    Trivia.Run (ofText cs).trivia ((ofText cs).lexeme ++ (ofText cs).rest) := by
  have h := Trivia.run_split cs
  rwa [← Lexeme.split_append (Trivia.split cs).2] at h

/-- A scan without a token finds one skipped word after blanks and comments, or nothing but those. -/
theorem skips_or_trails (h : (ofText cs).token? = none) :
    (∃ word, (ofText cs).lexeme = '#' :: word ∧ Filler ('#' :: word) (ofText cs).rest) ∨
      (ofText cs).trivia = cs ∧ (ofText cs).lexeme = [] ∧ Trivia.Run cs [] := by
  by_cases code : (Trivia.split cs).2 = []
  · right
    have run := run_trivia cs
    have lexeme : (ofText cs).lexeme = [] ∧ (ofText cs).rest = [] := by
      simp only [ofText, code]
      exact ⟨rfl, rfl⟩
    have whole := append_ofText cs
    rw [lexeme.1, lexeme.2, List.append_nil] at run whole
    rw [List.append_nil] at whole
    rw [whole] at run
    exact ⟨whole, lexeme.1, run⟩
  · left
    have filler : Filler (ofText cs).lexeme (ofText cs).rest := Lexeme.filler_split code h
    obtain ⟨word, hw, -⟩ :=
      Lexeme.eq_directive_of_ofLexeme?_eq_none (Lexeme.split_ne_nil code) h
    have spelled : (ofText cs).lexeme = '#' :: word := hw
    rw [spelled] at filler
    exact ⟨word, spelled, filler⟩

end Scan

end ShaderChannels
