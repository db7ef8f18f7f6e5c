import ShaderChannels.Proofs.Source.Lookahead
import ShaderChannels.Proofs.Source.Partition
import ShaderChannels.Proofs.Source.Position

/-!
# Stripped texts

The lexemes of a text, with single blanks between them and nothing else, are written with the same
tokens.  A lexeme is the longest one at its place, so a blank after it changes nothing; what follows
it in the text may only be one that could not be part of it.  Two lexemes need more than that: text
in quotes that is never closed takes in whatever follows, but then nothing follows it, and a slash
would open a comment with a slash or a star after it, which a blank keeps away.

* `Lexeme.split_blank`, `Scan.ofText_blank` — a lexeme is read off again with a blank after it.
* `Separable` — lexemes each of which is read off by itself, and off those after it.
* `Lexer.separable_drain` — the lexemes of every text are separable.
* `Lexer.yields_spaced` — separable lexemes are delivered one by one, each at its place.
* `Lexer.drain_stripped` — hence a text and its stripped form have the same tokens.
-/

namespace ShaderChannels

/-- `StartsBlank tail`: there is nothing in `tail`, or a blank first. -/
def StartsBlank (tail : List Char) : Prop := ∀ c ∈ tail.head?, c = ' '

theorem span_blank {p : Char → Bool} {tail : List Char} (hp : p ' ' = false)
    (blank : StartsBlank tail) (cs : List Char) :
    (cs.takeWhile p ++ tail).takeWhile p = cs.takeWhile p ∧
      (cs.takeWhile p ++ tail).dropWhile p = tail := by
  refine span_append (fun c hc ↦ List.mem_takeWhile_imp hc) fun c hc ↦ ?_
  rw [blank c hc, hp]

/-! ## Lexemes before a blank -/

namespace Quoted

variable {q : Char}

theorem split_cons {c : Char} (hc : c ≠ '\\') (r : List Char) :
    split q (c :: r) = if c = q then ([c], r) else (split q r).map (c :: ·) id := by
  rw [split]
  exact fun _ _ escape _ ↦ hc escape

/-- A character before which no escape is read is no backslash, unless nothing follows it. -/
theorem ne_backslash {c : Char} {r : List Char} (hr : r ≠ [])
    (plain : ∀ d rest, c = '\\' → r = d :: rest → False) : c ≠ '\\' := by
  rintro rfl
  obtain ⟨d, rest, rfl⟩ := List.exists_cons_of_ne_nil hr
  exact plain d rest rfl rfl

/-- Quoted text with something after it is closed, and so it ends there whatever follows. -/
theorem split_closed {cs : List Char} (closed : (split q cs).2 ≠ []) (tail : List Char) :
    split q ((split q cs).1 ++ tail) = ((split q cs).1, tail) := by
  fun_induction split q cs with
  | case1 => exact absurd rfl closed
  | case2 c r ih =>
    -- an escape, whatever is escaped
    simp only [Prod.map_fst, List.cons_append, split, ih closed]
    rfl
  | case3 r plain =>
    -- the closing quote, with something after it: it is no escape itself
    have hq : q ≠ '\\' := ne_backslash closed plain
    rw [List.singleton_append, split_cons hq, if_pos rfl]
  | case4 c r plain other ih =>
    have inner : (split q r).2 ≠ [] := closed
    have hr : r ≠ [] := by
      rintro rfl
      exact inner rfl
    rw [Prod.map_fst, List.cons_append, split_cons (ne_backslash hr plain), if_neg other, ih inner]
    rfl

end Quoted

namespace Numeral

variable {whole fraction tail : List Char}

/-- A numeral is a run of digits where neither a digit nor a point follows, or two runs with a point
between them where no digit follows. -/
theorem split_form (cs : List Char) :
    ((split cs).1 = cs.takeWhile Char.isDigit ∧
        ∀ c ∈ (split cs).2.head?, c.isDigit = false ∧ c ≠ '.') ∨
      ∃ fraction, (∀ c ∈ fraction, c.isDigit) ∧
        (split cs).1 = cs.takeWhile Char.isDigit ++ '.' :: fraction ∧
        ∀ c ∈ (split cs).2.head?, c.isDigit = false := by
  rw [split]
  split
  next r _ =>
    right
    refine ⟨r.takeWhile Char.isDigit, fun c hc ↦ List.mem_takeWhile_imp hc, rfl, ?_⟩
    intro c hc
    exact eq_false_of_head?_dropWhile hc
  next point =>
    left
    refine ⟨rfl, fun c hc ↦ ⟨eq_false_of_head?_dropWhile hc, ?_⟩⟩
    rintro rfl
    obtain ⟨r, hr⟩ := List.head?_eq_some_iff.mp hc
    exact point r hr

/-- Digits are a numeral where neither a digit nor a point follows. -/
theorem split_whole (hw : ∀ c ∈ whole, c.isDigit)
    (ends : ∀ c ∈ tail.head?, c.isDigit = false ∧ c ≠ '.') :
    split (whole ++ tail) = (whole, tail) := by
  obtain ⟨run, rest⟩ := span_append hw fun c hc ↦ (ends c hc).1
  rw [split, run, rest]
  split
  next r => exact absurd rfl (ends '.' rfl).2
  next => rfl

/-- Digits with a point and more digits after them are a numeral where no digit follows. -/
theorem split_fraction (hw : ∀ c ∈ whole, c.isDigit) (hf : ∀ c ∈ fraction, c.isDigit)
    (ends : ∀ c ∈ tail.head?, c.isDigit = false) :
    split (whole ++ '.' :: (fraction ++ tail)) = (whole ++ '.' :: fraction, tail) := by
  have point : ∀ c ∈ ('.' :: (fraction ++ tail)).head?, c.isDigit = false := by
    rintro c ⟨⟩
    rfl
  obtain ⟨run, rest⟩ := span_append hw point
  obtain ⟨run', rest'⟩ := span_append hf ends
  simp only [split, run, rest, run', rest']

theorem split_blank (blank : StartsBlank tail) (cs : List Char) :
    split ((split cs).1 ++ tail) = ((split cs).1, tail) := by
  have digits : ∀ c ∈ cs.takeWhile Char.isDigit, c.isDigit := fun c hc ↦
    List.mem_takeWhile_imp hc
  have ends : ∀ c ∈ tail.head?, c.isDigit = false ∧ c ≠ '.' := by
    intro c hc
    rw [blank c hc]
    decide
  rcases split_form cs with ⟨form, -⟩ | ⟨fraction, hf, form, -⟩
  · rw [form, split_whole digits ends]
  · rw [form, List.append_assoc, List.cons_append,
      split_fraction digits hf fun c hc ↦ (ends c hc).1]

end Numeral

namespace Lexeme

variable {tail : List Char}

/-- A character of no other class is a lexeme by itself, unless it is the first of two colons. -/
theorem split_single {c : Char} (quote : ¬ Quoted.isQuote c) (digit : ¬ c.isDigit)
    (word : ¬ (Word.isStart c || c == '#')) (alone : c = ':' → ∀ d ∈ tail.head?, d ≠ ':') :
    split (c :: tail) = ([c], tail) := by
  have colon : ¬ (c == ':' && tail.head? == some ':') := by
    rw [Bool.and_eq_true, beq_iff_eq, beq_iff_eq]
    rintro ⟨rfl, hd⟩
    exact alone rfl ':' hd rfl
  simp only [split, quote, digit, word, colon, Bool.false_eq_true, if_false]

/-- A lexeme with something after it ends there before a blank too. -/
theorem split_blank {cs : List Char} (more : (split cs).2 ≠ []) (blank : StartsBlank tail) :
    split ((split cs).1 ++ tail) = ((split cs).1, tail) := by
  fun_cases split cs with
  | case1 => exact absurd rfl more
  | case2 c r quote =>
    have closed : (Quoted.split c r).2 ≠ [] := by simpa [split, quote] using more
    have inner := Quoted.split_closed closed tail
    simp only [Prod.map_fst, List.cons_append, split, quote, if_true, inner]
    rfl
  | case3 c r quote digit =>
    obtain ⟨w, hw⟩ : ∃ w, (Numeral.split (c :: r)).1 = c :: w := by
      obtain ⟨d, w, hd⟩ := List.exists_cons_of_ne_nil (Numeral.split_ne_nil digit)
      have front := Numeral.split_append (c :: r)
      rw [hd, List.cons_append] at front
      exact ⟨w, by rw [hd, (List.cons.inj front).1]⟩
    have inner := Numeral.split_blank blank (c :: r)
    rw [hw, List.cons_append] at inner ⊢
    simp only [split, quote, digit, Bool.false_eq_true, if_true, if_false, inner]
  | case4 c r quote digit word =>
    have inner := span_blank (p := Word.isPart) rfl blank r
    simp only [Prod.map_fst, List.cons_append, split, quote, digit, word, Bool.false_eq_true,
      if_true, if_false, Word.split, inner]
    rfl
  | case5 c r quote digit word colons =>
    -- two colons are one lexeme already
    obtain rfl : c = ':' := by simp_all
    rfl
  | case6 c r quote digit word colons =>
    apply split_single quote digit word
    rintro rfl d hd
    rw [blank d hd]
    decide

end Lexeme

/-! ## Scans before a blank -/

namespace Trivia

/-- After trivia no more trivia is cut off. -/
theorem split_snd (i : Inside) (cs : List Char) :
    splitFrom .code (splitFrom i cs).2 = ([], (splitFrom i cs).2) := by
  fun_induction splitFrom i cs with
  | case1 i => rfl
  | case2 r ih => exact ih
  | case3 r ih => exact ih
  | case4 c r _ _ _ ih => exact ih
  | case5 c r line block code =>
    rw [splitFrom, if_neg code]
    · exact line
    · exact block
  | case6 c r ih => exact ih
  | case7 r ih => exact ih
  | case8 c r _ ih => exact ih

/-- `OpensNone c r`: the character `c` opens no comment with `r` after it. -/
def OpensNone (c : Char) (r : List Char) : Prop := c = '/' → ∀ d ∈ r.head?, d ≠ '/' ∧ d ≠ '*'

/-- A character that opens no comment is cut off if it is a blank, and is code otherwise. -/
theorem split_cons {c : Char} {r : List Char} (none : OpensNone c r) :
    split (c :: r) = if isBlank c then (split r).map (c :: ·) id else ([], c :: r) := by
  rw [split, splitFrom]
  · rfl
  · rintro rest rfl rfl
    exact (none rfl '/' rfl).1 rfl
  · rintro rest rfl rfl
    exact (none rfl '*' rfl).2 rfl

/-- Nothing is cut off exactly before a character that is no blank and opens no comment. -/
theorem split_cons_eq_iff {c : Char} {r : List Char} :
    split (c :: r) = ([], c :: r) ↔ isBlank c = false ∧ OpensNone c r := by
  constructor
  · intro h
    have none : OpensNone c r := by
      rintro rfl d hd
      obtain ⟨r', rfl⟩ := List.head?_eq_some_iff.mp hd
      refine ⟨?_, ?_⟩ <;> rintro rfl <;> exact List.cons_ne_nil _ _ (congrArg Prod.fst h)
    rw [split_cons none] at h
    refine ⟨?_, none⟩
    by_contra blank
    rw [Bool.not_eq_false] at blank
    rw [if_pos blank] at h
    exact List.cons_ne_nil _ _ (congrArg Prod.fst h)
  · rintro ⟨blank, none⟩
    rw [split_cons none, blank]
    rfl

theorem split_blank (cs : List Char) : split (' ' :: cs) = (split cs).map (' ' :: ·) id := rfl

end Trivia

namespace Scan

variable {tail : List Char}

/-- Before a blank, a lexeme at which no trivia starts still is one at which none starts: only a
slash could open a comment, and a slash is a lexeme by itself. -/
theorem split_trivia_blank {c : Char} {r : List Char} (code : Trivia.split (c :: r) = ([], c :: r))
    (blank : StartsBlank tail) :
    Trivia.split ((Lexeme.split (c :: r)).1 ++ tail) =
      ([], (Lexeme.split (c :: r)).1 ++ tail) := by
  obtain ⟨visible, -⟩ := Trivia.split_cons_eq_iff.mp code
  obtain ⟨d, w, hw⟩ := List.exists_cons_of_ne_nil (Lexeme.split_ne_nil (List.cons_ne_nil c r))
  obtain rfl : d = c := by
    have whole := Lexeme.split_append (c :: r)
    rw [hw, List.cons_append] at whole
    exact (List.cons.inj whole).1
  rw [hw, List.cons_append, Trivia.split_cons_eq_iff]
  refine ⟨visible, ?_⟩
  -- a slash is a lexeme by itself, so what follows it now is the blank
  rintro rfl e he
  obtain rfl : w = [] := (List.cons.inj hw).2.symm
  obtain rfl : e = ' ' := blank e he
  exact ⟨by decide, by decide⟩

/-- A lexeme with something after it is read off again where a blank follows, and the last lexeme
where nothing follows. -/
theorem ofText_blank {cs : List Char} (ne : (ofText cs).lexeme ≠ []) (blank : StartsBlank tail)
    (last : (ofText cs).rest = [] → tail = []) :
    ofText ((ofText cs).lexeme ++ tail) = ⟨[], (ofText cs).lexeme, tail⟩ := by
  have code : Trivia.split (Trivia.split cs).2 = ([], (Trivia.split cs).2) :=
    Trivia.split_snd .code cs
  simp only [ofText] at ne last ⊢
  generalize (Trivia.split cs).2 = front at *
  cases front with
  | nil => exact absurd rfl ne
  | cons c r =>
    have lexeme : Lexeme.split ((Lexeme.split (c :: r)).1 ++ tail) =
        ((Lexeme.split (c :: r)).1, tail) := by
      by_cases more : (Lexeme.split (c :: r)).2 = []
      -- the last lexeme may be text in quotes that is never closed, but then `tail` is empty
      · have whole := Lexeme.split_append (c :: r)
        rw [more, List.append_nil] at whole
        rw [last more, List.append_nil, whole]
        exact Prod.ext whole more
      · exact Lexeme.split_blank more blank
    rw [split_trivia_blank code blank, lexeme]

/-- A blank before what starts with no trivia is all the trivia there. -/
theorem ofText_cons_blank {cs : List Char} (h : (ofText cs).trivia = []) :
    ofText (' ' :: cs) = ⟨[' '], (ofText cs).lexeme, (ofText cs).rest⟩ := by
  have none : (Trivia.split cs).1 = [] := h
  simp only [ofText, Trivia.split_blank, Prod.map_fst, Prod.map_snd, id, none]

end Scan

/-! ## Separable lexemes -/

/-- Lexemes with a blank before each. -/
def spaced (ls : List (List Char)) : List Char := ls.flatMap (' ' :: ·)

theorem startsBlank_spaced (ls : List (List Char)) : StartsBlank (spaced ls) := by
  cases ls with
  | nil => exact fun _ h ↦ nomatch h
  | cons l ls =>
    rintro c ⟨⟩
    rfl

theorem intercalate_cons (l : List Char) (ls : List (List Char)) :
    [' '].intercalate (l :: ls) = l ++ spaced ls := by
  induction ls generalizing l with
  | nil => simp [spaced]
  | cons m ls ih =>
    rw [List.intercalate_cons_cons, ih]
    simp [spaced]

/-- Lexemes each of which has a token and is read off by itself as well as before a blank and the
lexemes after it. -/
inductive Separable : List (List Char) → Prop
  | nil : Separable []
  | cons {l : List Char} {ls : List (List Char)} :
    (Token.ofLexeme? l).isSome → Scan.ofText l = ⟨[], l, []⟩ →
    Scan.ofText (l ++ spaced ls) = ⟨[], l, spaced ls⟩ → Separable ls → Separable (l :: ls)

/-- Each of some separable lexemes is separable by itself. -/
theorem Separable.singleton_of_mem {l : List Char} {ls : List (List Char)} (h : Separable ls)
    (hl : l ∈ ls) : Separable [l] := by
  induction h with
  | nil => exact absurd hl List.not_mem_nil
  | cons some alone _ _ ih =>
    rcases List.mem_cons.mp hl with rfl | hl
    · refine .cons some alone ?_ .nil
      simpa [spaced] using alone
    · exact ih hl

namespace Span

/-- The places of lexemes from offset `p` on, with one character between each two. -/
def places (p : Nat) : List (List Char) → List Span
  | [] => []
  | l :: ls => ⟨p, p + l.length⟩ :: places (p + l.length + 1) ls

@[simp] theorem length_places (p : Nat) (ls : List (List Char)) :
    (places p ls).length = ls.length := by
  induction ls generalizing p with
  | nil => rfl
  | cons l ls ih => simp [places, ih]

/-- The places of lexemes that lie ahead with a blank between each two cover them. -/
theorem map_slice_places {text : List Char} {p : Nat} {ls : List (List Char)}
    (h : text.drop p = [' '].intercalate ls) : (places p ls).map (·.slice text) = ls := by
  induction ls generalizing p with
  | nil => rfl
  | cons l ls ih =>
    rw [intercalate_cons] at h
    rw [places, List.map_cons, slice_of_drop h]
    congr 1
    cases ls with
    | nil => rfl
    | cons m ls =>
      refine ih ?_
      rw [Nat.add_assoc, ← List.drop_drop, h, ← List.drop_drop, List.drop_left, intercalate_cons]
      rfl

end Span

namespace Lexer

variable {text : List Char} {l : Lexer}

/-- What lies ahead of a lexer is delivered first, at its place. -/
theorem next_of_scan (none : l.ahead = none) {s : Scan} (scan : Scan.ofText l.cursor.rest = s) :
    l.next.1 = Token.ofLexeme? s.lexeme ∧
      l.next.2.lastSpan = ⟨l.cursor.pos + s.trivia.length,
        l.cursor.pos + s.trivia.length + s.lexeme.length⟩ ∧
      l.next.2.cursor.pos = l.cursor.pos + s.trivia.length + s.lexeme.length ∧
      l.next.2.cursor.rest = s.rest := by
  rw [next_of_ahead none, ← scan]
  exact ⟨rfl, rfl, rfl, rfl⟩

/-- What a lexer still delivers, with its places. -/
def yields (l : Lexer) : List (Option Token × Span) := l.deliveries.map fun r ↦ (r.1, r.2.lastSpan)

theorem yields_of_ne_nil (none : l.ahead = none) (more : l.cursor.rest ≠ []) :
    l.yields = (l.next.1, l.next.2.lastSpan) :: l.next.2.yields := by
  have before : ¬ l.atEnd := by rwa [atEnd_of_ahead none, List.isEmpty_iff]
  rw [yields, deliveries, if_neg before]
  rfl

theorem yields_of_eq_nil (none : l.ahead = none) (nothing : l.cursor.rest = []) :
    l.yields = [] := by
  have ended : l.atEnd := by rw [atEnd_of_ahead none, nothing]; rfl
  rw [yields, deliveries, if_pos ended]
  rfl

/-- Separable lexemes with a blank before each are delivered one by one, each at its place. -/
theorem yields_spaced {ls : List (List Char)} (h : Separable ls) (none : l.ahead = none)
    (ahead : l.cursor.rest = spaced ls) :
    l.yields = (ls.map Token.ofLexeme?).zip (Span.places (l.cursor.pos + 1) ls) := by
  induction h generalizing l with
  | nil => exact yields_of_eq_nil none ahead
  | @cons lexeme ls _ _ followed _ ih =>
    have front : l.cursor.rest = ' ' :: (lexeme ++ spaced ls) := ahead
    have scan : Scan.ofText l.cursor.rest = ⟨[' '], lexeme, spaced ls⟩ := by
      rw [front, Scan.ofText_cons_blank (by rw [followed]), followed]
    obtain ⟨token, span, pos, rest⟩ := next_of_scan none scan
    rw [yields_of_ne_nil none (by rw [front]; exact List.cons_ne_nil _ _), ih (ahead_next l) rest,
      token, span, pos]
    rfl

/-- Separable lexemes with a blank between each two are delivered one by one, each at its place. -/
theorem yields_intercalate {ls : List (List Char)} (h : Separable ls) (none : l.ahead = none)
    (ahead : l.cursor.rest = [' '].intercalate ls) :
    l.yields = (ls.map Token.ofLexeme?).zip (Span.places l.cursor.pos ls) := by
  cases h with
  | nil => exact yields_of_eq_nil none ahead
  | @cons lexeme ls some _ followed later =>
    rw [intercalate_cons] at ahead
    have scan : Scan.ofText l.cursor.rest = ⟨[], lexeme, spaced ls⟩ := by rw [ahead, followed]
    obtain ⟨token, span, pos, rest⟩ := next_of_scan none scan
    have more : l.cursor.rest ≠ [] := by
      rw [ahead]
      intro empty
      rw [(List.append_eq_nil_iff.mp empty).1] at some
      exact absurd some (by decide)
    rw [yields_of_ne_nil none more, yields_spaced later (ahead_next l) rest, token, span, pos]
    rfl

/-! ## Lexemes of a text -/

/-- The characters of the tokens of a text, in order. -/
def lexemes (text : List Char) : List (List Char) := (spans text).map (·.slice text)

/-- The lexemes of a text with single blanks between them, and nothing else. -/
def stripped (text : List Char) : List Char := [' '].intercalate (lexemes text)

theorem drain_of_eq_nil (none : l.ahead = none) (nothing : l.cursor.rest = []) :
    l.drain.1 = [] := by
  have ended : l.atEnd := by rw [atEnd_of_ahead none, nothing]; rfl
  rw [drain, if_pos ended]

theorem slice_next (none : l.ahead = none) (h : l.cursor.Exact text) :
    l.next.2.lastSpan.slice text = (Scan.ofText l.cursor.rest).lexeme := by
  rw [next_of_ahead none]
  exact Span.slice_of_drop h.drop_trivia

/-- The tokens that a lexer drains to are written by separable lexemes. -/
theorem separable_drain (none : l.ahead = none) (h : l.cursor.Exact text) :
    Separable (l.drain.1.map (·.span.slice text)) ∧
      ∀ d ∈ l.drain.1, Token.ofLexeme? (d.span.slice text) = some d.token := by
  fun_induction drain l with
  | case1 l _ => exact ⟨.nil, List.forall_mem_nil _⟩
  | case2 l _ _ ih =>
    -- a word that is passed over has no token, and is no lexeme here
    rw [next_of_ahead none] at ih ⊢
    exact ih rfl (exact_lookAt h).2
  | case3 l _ t ht ih =>
    have slice := slice_next none h
    obtain ⟨token, -, -, rest⟩ := next_of_scan none rfl
    have written := token.symm.trans ht
    have ne := Scan.lexeme_ne_nil written
    have after : l.next.2.cursor.Exact text := by
      rw [next_of_ahead none]
      exact (exact_lookAt h).2
    obtain ⟨later, tokens⟩ := ih (ahead_next l) after
    -- nothing is drained after a lexeme that takes in all that lies ahead
    have last : (Scan.ofText l.cursor.rest).rest = [] →
        spaced (l.next.2.drain.1.map (·.span.slice text)) = [] := by
      intro nothing
      rw [drain_of_eq_nil (ahead_next l) (rest.trans nothing)]
      rfl
    have alone := Scan.ofText_blank ne (startsBlank_spaced []) fun _ ↦ rfl
    have followed := Scan.ofText_blank ne (startsBlank_spaced _) last
    simp only [Prod.map_fst, List.map_cons, List.forall_mem_cons, slice]
    refine ⟨.cons (by rw [written]; rfl) ?_ followed later, written, tokens⟩
    simpa [spaced] using alone

theorem drain_eq_yields (l : Lexer) :
    l.drain.1 = l.yields.filterMap fun p ↦ p.1.map (⟨·, p.2⟩) := by
  rw [(drain_eq l).1, remaining, yields, List.map_filterMap, List.filterMap_map]
  simp only [delivery?, Option.map_map]
  rfl

/-- Separable lexemes with a blank between each two are drained to their tokens, each at its place,
and no step delivers nothing. -/
theorem drain_intercalate {ls : List (List Char)} {ts : List Token} (h : Separable ls)
    (tokens : ls.map Token.ofLexeme? = ts.map some) :
    (ofText ([' '].intercalate ls)).drain.1 =
        (ts.zip (Span.places 0 ls)).map (fun p ↦ ⟨p.1, p.2⟩) ∧
      (ofText ([' '].intercalate ls)).deliveries.map Prod.fst = ts.map some := by
  have given : (ofText ([' '].intercalate ls)).yields = (ts.map some).zip (Span.places 0 ls) := by
    rw [← tokens]
    exact yields_intercalate h rfl rfl
  constructor
  · rw [drain_eq_yields, given, List.zip_map_left, List.filterMap_map]
    exact congrFun List.filterMap_eq_map _
  · have many : (ts.map some).length ≤ (Span.places 0 ls).length := by
      rw [← tokens, List.length_map, Span.length_places]
    have first := congrArg (List.map Prod.fst) given
    rwa [List.map_fst_zip many, yields, List.map_map] at first

/-- **Stripping.**  The lexemes of a text with single blanks between them have the tokens of the
text, in order, each at its place; no step delivers nothing.  A lexeme by itself has its one
token. -/
theorem drain_stripped (text : List Char) :
    (ofText (stripped text)).drain.1.map Placed.token = (ofText text).drain.1.map Placed.token ∧
      spans (stripped text) = Span.places 0 (lexemes text) ∧
      lexemes (stripped text) = lexemes text ∧
      (ofText (stripped text)).deliveries.map Prod.fst =
        (ofText text).drain.1.map (some ·.token) ∧
      ∀ d ∈ (ofText text).drain.1,
        (ofText (d.span.slice text)).drain.1 = [⟨d.token, ⟨0, (d.span.slice text).length⟩⟩] ∧
        (ofText (d.span.slice text)).deliveries.map Prod.fst = [some d.token] := by
  obtain ⟨separable, written⟩ := separable_drain (l := ofText text) rfl (Cursor.exact_ofText text)
  have same : lexemes text = (ofText text).drain.1.map (·.span.slice text) := List.map_map
  rw [← same] at separable
  have tokens : (lexemes text).map Token.ofLexeme? =
      ((ofText text).drain.1.map Placed.token).map some := by
    rw [same, List.map_map, List.map_map]
    exact List.map_congr_left written
  obtain ⟨drained, steps⟩ := drain_intercalate separable tokens
  have many : ((ofText text).drain.1.map Placed.token).length =
      (Span.places 0 (lexemes text)).length := by
    rw [Span.length_places, same, List.length_map, List.length_map]
  have places : spans (stripped text) = Span.places 0 (lexemes text) := by
    rw [spans, stripped, drained, List.map_map]
    exact List.map_snd_zip many.ge
  refine ⟨?_, places, ?_, by rwa [List.map_map] at steps, fun d hd ↦ ?_⟩
  · rw [stripped, drained, List.map_map]
    exact List.map_fst_zip many.le
  · rw [lexemes, places]
    exact Span.map_slice_places rfl
  · have alone : Separable [d.span.slice text] := by
      refine separable.singleton_of_mem ?_
      rw [same]
      exact List.mem_map_of_mem hd
    have token : [d.span.slice text].map Token.ofLexeme? = [d.token].map some := by
      rw [List.map_singleton, written d hd, List.map_singleton]
    have one := drain_intercalate alone token
    simpa [Span.places] using one

/-- Text in quotes that is never closed, with an escape in it, is the last lexeme of a text and of
its stripped form. -/
theorem drain_stripped_unclosed :
    let text := "1.5.2/'a\\'b".toList
    stripped text = "1.5 . 2 / 'a\\'b".toList ∧
      (ofText (stripped text)).drain.1.map Placed.token =
        (ofText text).drain.1.map Placed.token ∧
      (ofText "'a\\'b".toList).drain.1 = [⟨⟨.string, .text "a'b"⟩, ⟨0, 5⟩⟩] := by
  intro text
  obtain ⟨tokens, -, -, -, single⟩ := drain_stripped text
  have last : ⟨⟨.string, .text "a'b"⟩, ⟨6, 11⟩⟩ ∈ (ofText text).drain.1 := by decide +kernel
  exact ⟨by decide +kernel, tokens, (single _ last).1⟩

end Lexer

end ShaderChannels
