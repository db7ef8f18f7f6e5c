import ShaderChannels.Proofs.Source.Stripped

/-!
# Extension of a text

More text after a text changes little in how it is read.  A lexeme ends for good once a character
stands after it that is no part of it: nothing beyond that character is looked at.  Trivia needs two
characters after it, since only the second one tells whether a slash opens a comment; but where a
lexeme follows with a character after that, there are two.  So all that is handed out is settled, up
to what touches the end of the text.

* `Settled` — what is cut off is settled by a number of characters after it.
* `Lexeme.settled_split`, `Trivia.settled_splitFrom`, `Scan.ofText_append` — one for lexemes, two for
  trivia, one for both together.
* `Lexer.next_extend` — a step that stays before the end is the same with more text after the end.
* `Lexer.finished_prefix` — so are all steps that hand out tokens which end before the end.
* `Lexer.remaining_append` — hence the tokens of a text, but for the last, are the first ones of the
  text with more after it.
-/

namespace ShaderChannels

/-- `Settled k f`: where `f` cuts a text in two and leaves at least `k` characters, it cuts at the
same place whatever follows them. -/
def Settled (k : Nat) (f : List Char → List Char × List Char) : Prop :=
  ∀ cs more, k ≤ (f cs).2.length → f (cs ++ more) = ((f cs).1, (f cs).2 ++ more)

/-! ## Lexemes -/

theorem Word.settled_split : Settled 1 Word.split := by
  intro cs more left
  have ends : cs.dropWhile isPart ≠ [] := List.ne_nil_of_length_pos left
  obtain ⟨run, rest⟩ := span_append_of_ne_nil more ends
  show ((cs ++ more).takeWhile isPart, (cs ++ more).dropWhile isPart) = _
  rw [run, rest]
  rfl

theorem Quoted.settled_split (q : Char) : Settled 1 (Quoted.split q) := by
  intro cs more left
  have closed : (split q cs).2 ≠ [] := List.ne_nil_of_length_pos left
  have whole : cs ++ more = (split q cs).1 ++ ((split q cs).2 ++ more) := by
    rw [← List.append_assoc, split_append]
  rw [whole]
  exact split_closed closed _

/-- A numeral ends for good before a character that goes on with none: the point is known to be one
before the digits after it are read. -/
theorem Numeral.settled_split : Settled 1 Numeral.split := by
  intro cs more left
  rw [split] at left ⊢
  rw [split]
  cases point : cs.dropWhile Char.isDigit with
  | nil => simp [point] at left
  | cons c r =>
    obtain ⟨run, rest⟩ := span_append_of_ne_nil more (by rw [point]; exact List.cons_ne_nil c r)
    rw [run, rest, point]
    by_cases hc : c = '.'
    · subst hc
      have ends : r.dropWhile Char.isDigit ≠ [] := by
        simp only [point] at left
        exact List.ne_nil_of_length_pos left
      obtain ⟨run, rest⟩ := span_append_of_ne_nil more ends
      simp only [List.cons_append, run, rest]
    · simp [hc]

/-- A lexeme ends for good before any character. -/
theorem Lexeme.settled_split : Settled 1 Lexeme.split := by
  intro cs more left
  fun_cases split cs with
  | case1 => exact absurd left (by decide)
  | case2 c r quote =>
    have inner := Quoted.settled_split c r more (by simpa [split, quote] using left)
    simp only [List.cons_append, split, quote, if_true, inner]
    rfl
  | case3 c r quote digit =>
    have inner := Numeral.settled_split (c :: r) more (by simpa [split, quote, digit] using left)
    rw [List.cons_append] at inner ⊢
    simp only [split, quote, digit, Bool.false_eq_true, if_true, if_false, inner]
  | case4 c r quote digit word =>
    have inner := Word.settled_split r more (by simpa [split, quote, digit, word] using left)
    simp only [List.cons_append, split, quote, digit, word, Bool.false_eq_true, if_true, if_false,
      inner]
    rfl
  | case5 c r quote digit word colons =>
    obtain ⟨rfl, r', rfl⟩ : c = ':' ∧ ∃ r', r = ':' :: r' := by
      rw [Bool.and_eq_true, beq_iff_eq, beq_iff_eq] at colons
      exact ⟨colons.1, List.head?_eq_some_iff.mp colons.2⟩
    rfl
  | case6 c r quote digit word colons =>
    -- the character after a colon is known, so that no second colon can follow
    obtain ⟨d, r', rfl⟩ : ∃ d r', r = d :: r' := by
      apply List.exists_cons_of_ne_nil
      rintro rfl
      simp [split, quote, digit, word] at left
    simp only [List.cons_append, split, quote, digit, word, Bool.false_eq_true, if_false]
    rw [if_neg]
    simpa using colons

/-! ## Trivia -/

namespace Trivia

/-- A character that opens no comment with a certain character after it opens none with more text
after that one. -/
theorem OpensNone.append {c d : Char} {r : List Char} (h : OpensNone c (d :: r))
    (more : List Char) : OpensNone c (d :: r ++ more) := h

/-- Trivia ends for good before any two characters. -/
theorem settled_splitFrom (i : Inside) : Settled 2 (splitFrom i) := by
  intro cs more left
  fun_induction splitFrom i cs with
  | case1 i => exact absurd left (by decide)
  | case2 r ih =>
    simp only [List.cons_append, splitFrom, ih left]
    rfl
  | case3 r ih =>
    simp only [List.cons_append, splitFrom, ih left]
    rfl
  | case4 c r _ _ blank ih =>
    have none : OpensNone c (r ++ more) := by
      rintro rfl
      exact absurd blank (by decide)
    have cut := split_cons none
    rw [if_pos blank] at cut
    apply cut.trans
    rw [split, ih left]
    rfl
  | case5 c r line block code =>
    -- whether a slash opens a comment is told by the second of the characters that are left
    obtain ⟨d, r', rfl⟩ : ∃ d r', r = d :: r' := by
      apply List.exists_cons_of_ne_nil
      rintro rfl
      simp at left
    have none : OpensNone c (d :: r') := by
      rintro rfl e ⟨⟩
      constructor
      · rintro rfl
        exact line r' rfl rfl
      · rintro rfl
        exact block r' rfl rfl
    have cut := split_cons (none.append more)
    rwa [if_neg code] at cut
  | case6 c r ih =>
    simp only [List.cons_append, splitFrom, ih left]
    rfl
  | case7 r ih =>
    simp only [List.cons_append, splitFrom, ih left]
    rfl
  | case8 c r goesOn ih =>
    rw [List.cons_append, splitFrom, ih left]
    · rfl
    · rintro rest rfl slash
      cases r with
      | nil => exact absurd left (by decide)
      | cons d r' =>
        obtain rfl : d = '/' := (List.cons.inj slash).1
        exact goesOn r' rfl rfl

end Trivia

/-! ## Scans -/

/-- A scan that leaves anything finds the same with more text after that. -/
theorem Scan.ofText_append {cs : List Char} (left : (ofText cs).rest ≠ []) (more : List Char) :
    ofText (cs ++ more) =
      ⟨(ofText cs).trivia, (ofText cs).lexeme, (ofText cs).rest ++ more⟩ := by
  have lexeme := Lexeme.settled_split (Trivia.split cs).2 more (List.length_pos_iff.mpr left)
  have two : 2 ≤ (Trivia.split cs).2.length := by
    have whole := congrArg List.length (Lexeme.split_append (Trivia.split cs).2)
    have first : (Lexeme.split (Trivia.split cs).2).1 ≠ [] := by
      apply Lexeme.split_ne_nil
      intro nothing
      simp only [ofText, nothing] at left
      exact left rfl
    have := List.length_pos_iff.mpr first
    have : 0 < (Lexeme.split (Trivia.split cs).2).2.length := List.length_pos_iff.mpr left
    rw [List.length_append] at whole
    omega
  have trivia := Trivia.settled_splitFrom .code cs more two
  simp only [ofText, Trivia.split] at lexeme ⊢
  simp only [trivia, lexeme]

/-! ## Lexers -/

/-- The cursor in a text that goes on with `more`. -/
def Cursor.extend (more : List Char) (c : Cursor) : Cursor := ⟨c.pos, c.line, c.rest ++ more⟩

namespace Lexer

/-- The lexer in a text that goes on with `more`. -/
def extend (more : List Char) (l : Lexer) : Lexer :=
  ⟨l.cursor.extend more, l.ahead, l.lastSpan, l.lastLine⟩

/-- What is looked ahead to before the end is the same with more text after the end. -/
theorem lookAt_extend {c : Cursor} (left : (lookAt c).2.rest ≠ []) (more : List Char) :
    lookAt (c.extend more) = (lookAt c).map id (.extend more) := by
  have scan : Scan.ofText (c.extend more).rest = _ := Scan.ofText_append left more
  simp only [lookAt, scan]
  rfl

variable {l : Lexer}

/-- A step that stays before the end is the same with more text after the end. -/
theorem next_extend (none : l.ahead = none) (left : l.next.2.cursor.rest ≠ []) (more : List Char) :
    (l.extend more).next = l.next.map id (.extend more) := by
  rw [next_of_ahead none] at left ⊢
  rw [next_of_ahead (show (l.extend more).ahead = Option.none from none)]
  show ((lookAt (l.cursor.extend more)).1.token?, _) = _
  simp only [extend, lookAt_extend left]
  rfl

/-- A step stays in its text. -/
theorem textLength_next (none : l.ahead = none) :
    l.next.2.cursor.textLength = l.cursor.textLength := by
  have whole := congrArg List.length (Scan.append_ofText l.cursor.rest)
  rw [next_of_ahead none]
  simp only [Cursor.textLength, pos_lookAt, stop_lookAt, rest_lookAt]
  simp only [List.length_append] at whole
  omega

/-- What a step hands out ends where the lexer stands after it. -/
theorem stop_of_mem_delivery? (none : l.ahead = none) {d : Delivery} (h : d ∈ delivery? l.next) :
    d.span.stop = l.next.2.cursor.pos := by
  obtain ⟨t, -, rfl⟩ := Option.map_eq_some_iff.mp h
  rw [next_of_ahead none]
  rfl

/-- The tokens still to come that end before the end of the text. -/
def finished (l : Lexer) : List Delivery :=
  l.remaining.filter (·.span.stop < l.cursor.textLength)

/-- After a step to the end nothing is to come, and what the step hands out is not finished. -/
theorem finished_of_eq_nil (none : l.ahead = none) (nothing : l.next.2.cursor.rest = []) :
    l.finished = [] ∧ l.remaining = (delivery? l.next).toList := by
  have spent : l.next.2.remaining = [] := by
    apply remaining_of_atEnd
    rw [atEnd_of_ahead (ahead_next l), nothing]
    rfl
  have all : l.remaining = (delivery? l.next).toList := by
    rw [remaining_eq, spent, List.append_nil]
  refine ⟨?_, all⟩
  rw [finished, all, List.filter_eq_nil_iff]
  intro d hd
  have length := textLength_next none
  rw [Cursor.textLength, nothing] at length
  rw [stop_of_mem_delivery? none (Option.mem_toList.mp hd)]
  simpa using length.ge

/-- What a step that stays before the end hands out is finished. -/
theorem finished_of_ne_nil (none : l.ahead = none) (left : l.next.2.cursor.rest ≠ []) :
    l.finished = (delivery? l.next).toList ++ l.next.2.finished := by
  rw [finished, finished, remaining_eq, List.filter_append, textLength_next none]
  congr 1
  rw [List.filter_eq_self]
  intro d hd
  have length := textLength_next none
  have := List.length_pos_iff.mpr left
  rw [Cursor.textLength] at length
  rw [stop_of_mem_delivery? none (Option.mem_toList.mp hd), decide_eq_true_eq]
  omega

/-- All tokens still to come are finished but for the last one, if that ends with the text. -/
theorem remaining_eq_finished (none : l.ahead = none) :
    ∃ last : Option Delivery, l.remaining = l.finished ++ last.toList := by
  induction l using deliveries.induct with
  | case1 l ended =>
    refine ⟨Option.none, ?_⟩
    rw [finished, remaining_of_atEnd ended]
    rfl
  | case2 l _ ih =>
    by_cases nothing : l.next.2.cursor.rest = []
    · obtain ⟨finished, all⟩ := finished_of_eq_nil none nothing
      rw [finished, all]
      exact ⟨_, rfl⟩
    · obtain ⟨last, later⟩ := ih (ahead_next l)
      refine ⟨last, ?_⟩
      rw [remaining_eq, later, finished_of_ne_nil none nothing, List.append_assoc]

/-- The finished tokens come first with more text after the end as well. -/
theorem finished_prefix (none : l.ahead = none) (more : List Char) :
    l.finished <+: (l.extend more).remaining := by
  induction l using deliveries.induct with
  | case1 l ended =>
    rw [finished, remaining_of_atEnd ended]
    exact List.nil_prefix
  | case2 l _ ih =>
    by_cases nothing : l.next.2.cursor.rest = []
    · rw [(finished_of_eq_nil none nothing).1]
      exact List.nil_prefix
    · rw [finished_of_ne_nil none nothing, remaining_eq (l.extend more),
        next_extend none nothing]
      apply (List.prefix_append_right_inj _).mpr
      exact ih (ahead_next l)

/-- **Prefix stability.**  The tokens of a text that end before its end are the first ones of the
text with anything after it, with their places and lines.  Only the last token of the text may be
missing among them. -/
theorem remaining_append (u v : List Char) :
    (ofText u).remaining.filter (·.span.stop < u.length) <+: (ofText (u ++ v)).remaining ∧
      ∃ last : Option Delivery, (ofText u).remaining =
        (ofText u).remaining.filter (·.span.stop < u.length) ++ last.toList := by
  have length : (ofText u).cursor.textLength = u.length := Nat.zero_add _
  rw [← length]
  constructor
  · exact finished_prefix (l := ofText u) rfl v
  · exact remaining_eq_finished (l := ofText u) rfl

end Lexer

end ShaderChannels
