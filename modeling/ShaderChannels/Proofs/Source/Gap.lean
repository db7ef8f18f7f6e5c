import Mathlib.Tactic.SplitIfs
import ShaderChannels.Proofs.Text.Span
import ShaderChannels.Source.Lexer

/-!
# Gaps

Between the tokens of a text stand things that yield none: blanks, comments, and `#` words that
name no preview directive.  `Filler` says what such a thing is by its characters and by what comes
after it, without reference to how a text is scanned; `Gap` is a sequence of them.

* `Trivia.gap_split` — what is cut off before a lexeme is a gap.
* `Lexeme.filler_split` — a lexeme without a token is a filler.
* `Scan.gap_trivia`, `Scan.gap_lexeme` — hence all that a scan passes over is a gap.
-/

namespace ShaderChannels

/-! ## What yields no token -/

/-- `Filler piece rest`: the characters `piece`, with `rest` after them, are one thing that yields
no token.  What follows matters, since a comment may be closed by the end of the text only, and a
word ends only where no word character follows. -/
inductive Filler : List Char → List Char → Prop
  | /-- A blank. -/
    blank {c : Char} {rest : List Char} :
      c ∈ [' ', '\t', '\r', '\n', '\\'] → Filler [c] rest
  | /-- A line comment, up to and with the first line end. -/
    line {body rest : List Char} :
      '\n' ∉ body → Filler ('/' :: '/' :: (body ++ ['\n'])) rest
  | /-- A line comment that the end of the text closes. -/
    lastLine {body : List Char} :
      '\n' ∉ body → Filler ('/' :: '/' :: body) []
  | /-- A block comment, up to and with the first closing marks after the opening ones. -/
    block {body rest : List Char} :
      ¬ ['*', '/'] <:+: body ++ ['*'] → Filler ('/' :: '*' :: (body ++ ['*', '/'])) rest
  | /-- A block comment that is never closed. -/
    lastBlock {body : List Char} :
      ¬ ['*', '/'] <:+: body → Filler ('/' :: '*' :: body) []
  | /-- A `#` with the longest word after it, which names no preview directive. -/
    directive {word rest : List Char} :
      (∀ c ∈ word, Word.isPart c) → (∀ c ∈ rest.head?, ¬ Word.isPart c) →
      word ∉ ["include".toList, "iKeyboard".toList, "iUniform".toList] →
      ¬ "iChannel".toList <+: word → Filler ('#' :: word) rest

/-- `Gap gap rest`: the characters `gap`, with `rest` after them, are a sequence of fillers. -/
inductive Gap : List Char → List Char → Prop
  | /-- Nothing at all. -/
    nil {rest : List Char} : Gap [] rest
  | /-- One more filler in front. -/
    cons {piece gap rest : List Char} :
      Filler piece (gap ++ rest) → Gap gap rest → Gap (piece ++ gap) rest

/-- A filler is a gap. -/
theorem Filler.gap {piece rest : List Char} (h : Filler piece rest) : Gap piece rest := by
  have one : Gap (piece ++ []) rest := .cons h .nil
  rwa [List.append_nil] at one

/-- Gaps that follow each other are a gap. -/
theorem Gap.append {g h rest : List Char} (hg : Gap g (h ++ rest)) (hh : Gap h rest) :
    Gap (g ++ h) rest := by
  generalize hr : h ++ rest = r at hg
  induction hg with
  | nil => exact hh
  | cons hp _ ih =>
    subst hr
    rw [List.append_assoc]
    refine .cons ?_ (ih rfl)
    rwa [List.append_assoc]

namespace Trivia

/-! ## Trivia

The scan of trivia remembers only whether it is in a comment.  Inside one, the characters cut off
are the rest of that comment and the gap after it. -/

/-- `Cut i cut rest`: the characters `cut`, with `rest` after them, are the rest of what `i` lies in,
followed by a gap. -/
def Cut : Inside → List Char → List Char → Prop
  | .code, cut, rest => Gap cut rest
  | .line, cut, rest =>
    (∃ body gap, cut = body ++ '\n' :: gap ∧ '\n' ∉ body ∧ Gap gap rest) ∨ '\n' ∉ cut ∧ rest = []
  | .block, cut, rest =>
    (∃ body gap, cut = body ++ '*' :: '/' :: gap ∧ ¬ ['*', '/'] <:+: body ++ ['*'] ∧
      Gap gap rest) ∨ ¬ ['*', '/'] <:+: cut ∧ rest = []

/-- The rest of a line comment, with its opening marks, begins a gap. -/
theorem Cut.line_gap {cut rest : List Char} (h : Cut .line cut rest) :
    Gap ('/' :: '/' :: cut) rest := by
  rcases h with ⟨body, gap, rfl, fresh, hg⟩ | ⟨fresh, rfl⟩
  · have := Gap.cons (.line fresh) hg
    simpa using this
  · exact (Filler.lastLine fresh).gap

/-- The rest of a block comment, with its opening marks, begins a gap. -/
theorem Cut.block_gap {cut rest : List Char} (h : Cut .block cut rest) :
    Gap ('/' :: '*' :: cut) rest := by
  rcases h with ⟨body, gap, rfl, fresh, hg⟩ | ⟨fresh, rfl⟩
  · have := Gap.cons (.block fresh) hg
    simpa using this
  · exact (Filler.lastBlock fresh).gap

/-- One more character of a line comment. -/
theorem Cut.line_cons {c : Char} {cut rest : List Char} (hc : c ≠ '\n')
    (h : Cut .line cut rest) : Cut .line (c :: cut) rest := by
  rcases h with ⟨body, gap, rfl, fresh, hg⟩ | ⟨fresh, rfl⟩
  · refine .inl ⟨c :: body, gap, rfl, ?_, hg⟩
    exact List.not_mem_cons_of_ne_of_not_mem hc.symm fresh
  · exact .inr ⟨List.not_mem_cons_of_ne_of_not_mem hc.symm fresh, rfl⟩

/-- One more character in front brings no closing marks where it does not make them with what
follows. -/
theorem not_infix_cons {c : Char} {cs : List Char} (hc : ¬ ['*', '/'] <+: c :: cs)
    (h : ¬ ['*', '/'] <:+: cs) : ¬ ['*', '/'] <:+: c :: cs := by
  rw [List.infix_cons_iff]
  rintro (front | later)
  · exact hc front
  · exact h later

/-- One more character of a block comment, which does not close it. -/
theorem Cut.block_cons {c : Char} {cut rest : List Char}
    (hc : ¬ ['*', '/'] <+: c :: (cut ++ rest)) (h : Cut .block cut rest) :
    Cut .block (c :: cut) rest := by
  rcases h with ⟨body, gap, rfl, fresh, hg⟩ | ⟨fresh, rfl⟩
  · refine .inl ⟨c :: body, gap, rfl, not_infix_cons (fun front ↦ hc ?_) fresh, hg⟩
    refine front.trans ⟨'/' :: (gap ++ rest), ?_⟩
    simp
  · refine .inr ⟨not_infix_cons (fun front ↦ hc ?_) fresh, rfl⟩
    rwa [List.append_nil]

/-- A blank before a gap. -/
theorem Cut.code_cons {c : Char} {cut rest : List Char} (hc : isBlank c)
    (h : Cut .code cut rest) : Cut .code (c :: cut) rest := by
  have blank : Filler [c] (cut ++ rest) := .blank (by simpa [isBlank, or_assoc] using hc)
  exact .cons blank h

/-- What the scan cuts off is the rest of what the front lies in, followed by a gap. -/
theorem splitFrom_cut (i : Inside) (cs : List Char) :
    Cut i (splitFrom i cs).1 (splitFrom i cs).2 := by
  fun_induction splitFrom i cs with
  | case1 i =>
    cases i with
    | code => exact Gap.nil
    | line => exact .inr ⟨List.not_mem_nil, rfl⟩
    | block => exact .inr ⟨by simp, rfl⟩
  | case2 r ih => exact ih.line_gap
  | case3 r ih => exact ih.block_gap
  | case4 c r _ _ hc ih => exact ih.code_cons hc
  | case5 c r => exact Gap.nil
  | case6 c r ih =>
    by_cases hc : c = '\n'
    · subst hc
      exact .inl ⟨[], _, rfl, List.not_mem_nil, ih⟩
    · simp only [hc, if_false] at ih ⊢
      exact ih.line_cons hc
  | case7 r ih => exact .inl ⟨[], _, rfl, fun closed ↦ absurd closed.length_le (by simp), ih⟩
  | case8 c r open' ih =>
    refine ih.block_cons ?_
    rw [splitFrom_append]
    rintro ⟨t, ht⟩
    obtain ⟨rfl, hr⟩ := List.cons.inj ht
    exact open' t rfl hr.symm

/-- What is cut off before a lexeme is a gap. -/
theorem gap_split (cs : List Char) : Gap (split cs).1 (split cs).2 := splitFrom_cut .code cs

end Trivia

namespace Lexeme

/-! ## Lexemes without a token -/

/-- A word names a preview directive if it is one of the fixed words or starts like a channel. -/
theorem isDirective_iff {w : List Char} :
    Word.isDirective w ↔
      w ∈ ["include".toList, "iKeyboard".toList, "iUniform".toList] ∨ "iChannel".toList <+: w := by
  simp [Word.isDirective, Word.directives, Word.channelStem, String.ext_iff]

/-- Only a `#` with a word that names no preview directive is a lexeme without a token. -/
theorem eq_directive_of_ofLexeme?_eq_none {lexeme : List Char} (ne : lexeme ≠ [])
    (h : Token.ofLexeme? lexeme = none) :
    ∃ word, lexeme = '#' :: word ∧ Word.isDirective word = false := by
  cases lexeme with
  | nil => exact absurd rfl ne
  | cons c word =>
    refine ⟨word, ?_⟩
    simp only [Token.ofLexeme?] at h
    split_ifs at h with quote digit start hash names
    exact ⟨by rw [eq_of_beq hash], Bool.eq_false_iff.mpr names⟩

/-- A `#` starts a lexeme that takes in the longest word after it. -/
theorem split_hash (cs : List Char) :
    split ('#' :: cs) = ('#' :: cs.takeWhile Word.isPart, cs.dropWhile Word.isPart) := rfl

/-- A lexeme without a token is a filler. -/
theorem filler_split {cs : List Char} (ne : cs ≠ []) (h : Token.ofLexeme? (split cs).1 = none) :
    Filler (split cs).1 (split cs).2 := by
  obtain ⟨word, hw, names⟩ := eq_directive_of_ofLexeme?_eq_none (split_ne_nil ne) h
  obtain ⟨r, rfl⟩ : ∃ r, cs = '#' :: r := by
    refine ⟨word ++ (split cs).2, ?_⟩
    rw [← List.cons_append, ← hw, split_append]
  rw [split_hash] at hw ⊢
  obtain rfl : r.takeWhile Word.isPart = word := (List.cons.inj hw).2
  have none_of : ¬ Word.isDirective (r.takeWhile Word.isPart) = true := by simp [names]
  rw [isDirective_iff, not_or] at none_of
  refine .directive (fun c hc ↦ ?_) (fun c hc ↦ ?_) none_of.1 none_of.2
  · exact List.mem_takeWhile_imp hc
  · simpa using eq_false_of_head?_dropWhile hc

end Lexeme

namespace Scan

/-! ## Scans -/

/-- What stands before a lexeme is a gap. -/
theorem gap_trivia (cs : List Char) :
    Gap (ofText cs).trivia ((ofText cs).lexeme ++ (ofText cs).rest) := by
  have h := Trivia.gap_split cs
  rwa [← Lexeme.split_append (Trivia.split cs).2] at h

/-- A lexeme without a token belongs to the gap before it. -/
theorem gap_lexeme {cs : List Char} (h : (ofText cs).token? = none) :
    Gap ((ofText cs).trivia ++ (ofText cs).lexeme) (ofText cs).rest := by
  refine (gap_trivia cs).append ?_
  by_cases code : (Trivia.split cs).2 = []
  · simp only [ofText, code]
    exact .nil
  · exact (Lexeme.filler_split code h).gap

/-- A token is written by some characters. -/
theorem lexeme_ne_nil {cs : List Char} {t : Token} (h : (ofText cs).token? = some t) :
    (ofText cs).lexeme ≠ [] := by
  intro empty
  rw [token?, empty] at h
  exact absurd h (by simp [Token.ofLexeme?])

end Scan

end ShaderChannels
