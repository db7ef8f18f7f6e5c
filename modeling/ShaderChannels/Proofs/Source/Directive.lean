import Mathlib.Data.List.Forall2
import Mathlib.Data.List.Pairwise
import ShaderChannels.Proofs.Source.Spelling
import ShaderChannels.Source.Directive

/-!
# Directives and tokens

The scan for directives looks one lexeme ahead after each keyword, and goes on with what it found
there if that is no quoted text.  What it finds is nevertheless what a lexer delivers step by step
without ever looking ahead: its preprocessor keywords, each with the quoted text that the very next
step delivers.

* `Directive.announced?` — the directive that one step announces, told by that step and the next.
* `Directive.announced_peek` — a look ahead loses nothing, also where it finds a skipped word last.
* `Directive.scan_eq` — hence the scan finds what the steps announce.
* `Directive.directives_exact` — the directives of a text are its keywords, in order, and lie apart
  from its comments, its quoted texts and all else.
-/

namespace ShaderChannels

namespace Directive

variable {l : Lexer}

/-! ## What steps announce -/

/-- The directive that a step of a lexer announces: the keyword that the step delivers, with the
quoted text that the step right after it delivers. -/
def announced? (r : Option Token × Lexer) : Option Directive :=
  (r.1.bind keyword?).map (⟨·, r.2.lastLine, r.2.lastSpan, r.2.next.1.bind argument?⟩)

/-- What the steps of a lexer up to the end announce. -/
def announced (l : Lexer) : List Directive := l.deliveries.filterMap announced?

theorem announced_of_atEnd (h : l.atEnd) : announced l = [] := by
  rw [announced, Lexer.deliveries_of_atEnd h]
  rfl

/-- What is announced is what the next step announces and what is announced after it. -/
theorem announced_eq (l : Lexer) :
    announced l = (announced? l.next).toList ++ announced l.next.2 :=
  Lexer.filterMap_deliveries (fun _ ↦ rfl) l

/-- A look ahead changes nothing of what is announced, although it may bring the lexer to its
end. -/
theorem announced_peek (l : Lexer) : announced l.peek.2 = announced l := by
  rw [announced_eq l.peek.2, announced_eq l, Lexer.next_peek]

/-- A step without a keyword announces nothing. -/
theorem announced_of_keyword?_eq_none (h : l.next.1.bind keyword? = none) :
    announced l = announced l.next.2 := by
  rw [announced_eq, announced?, h]
  rfl

/-! ## Keywords and quoted texts -/

theorem keyword?_eq_some_iff {t : Token} {w : String} :
    keyword? t = some w ↔ t = ⟨.preprocessorKeyword, .text w⟩ := by
  obtain ⟨kind, value⟩ := t
  cases kind <;> cases value <;> simp [keyword?, TokenValue.text?]

theorem argument?_eq_some_iff {t : Token} {v : String} :
    argument? t = some v ↔ t = ⟨.string, .text v⟩ := by
  obtain ⟨kind, value⟩ := t
  cases kind <;> cases value <;> simp [argument?, TokenValue.text?]

/-- Quoted text is no keyword. -/
theorem keyword?_of_argument? {t : Token} (h : (argument? t).isSome) : keyword? t = none := by
  obtain ⟨v, hv⟩ := Option.isSome_iff_exists.mp h
  rw [argument?_eq_some_iff.mp hv]
  rfl

/-- **The scan announces what the steps do.**  After a keyword it goes on behind the quoted text that
follows, or else with what it looked ahead to; either way nothing is announced in between. -/
theorem scan_eq (l : Lexer) : scan l = announced l := by
  fun_induction scan l with
  | case1 l ended => exact (announced_of_atEnd ended).symm
  | case2 l _ none ih => rw [ih, announced_of_keyword?_eq_none none]
  | case3 l _ keyword found here argument taken left =>
    have first : announced? l.next = some ⟨keyword, here.lastLine, here.lastSpan, argument⟩ := by
      rw [announced?, found]
      rfl
    have later : (if argument.isSome then scan here.peek.2.next.2 else scan here.peek.2) =
        announced here := by
      split
      next quoted =>
        have silent : here.next.1.bind keyword? = none := by
          obtain ⟨v, hv⟩ := Option.isSome_iff_exists.mp quoted
          obtain ⟨t, ht, text⟩ := Option.bind_eq_some_iff.mp hv
          rw [← Lexer.fst_peek, ht]
          exact keyword?_of_argument? (Option.isSome_of_eq_some text)
        rw [taken quoted, Lexer.next_peek, announced_of_keyword?_eq_none silent]
      next => rw [left, announced_peek]
    rw [later, announced_eq l, first]
    rfl

/-! ## Delivered tokens -/

/-- Keywords and quoted texts carry a text. -/
theorem exists_text_of_lexeme {lexeme : List Char} {t : Token}
    (h : Token.ofLexeme? lexeme = some t)
    (kind : t.kind = .preprocessorKeyword ∨ t.kind = .string) : ∃ s, t.value = .text s := by
  revert h
  fun_cases Token.ofLexeme? lexeme with
  | case1 => exact fun h ↦ nomatch h
  | case3 c r _ digit =>
    rintro ⟨⟩
    dsimp only at kind
    split at kind <;> simp at kind
  | case6 => exact fun h ↦ nomatch h
  | _ =>
    rintro ⟨⟩
    exact ⟨_, rfl⟩

/-- What a lexer delivers where nothing was looked ahead to is written by some lexeme. -/
theorem exists_lexeme_next (none : l.ahead = none) {t : Token} (h : l.next.1 = some t) :
    ∃ lexeme, Token.ofLexeme? lexeme = some t := by
  rw [Lexer.next_of_ahead none] at h
  exact ⟨_, h⟩

/-- The token of a directive, with its place and line. -/
def delivery (d : Directive) : Delivery :=
  ⟨⟨.preprocessorKeyword, .text d.keyword⟩, d.span, d.line⟩

/-- The delivery of a step, if it is a preprocessor keyword. -/
def keywordDelivery? (r : Option Token × Lexer) : Option Delivery :=
  (Lexer.delivery? r).filter (·.token.kind = .preprocessorKeyword)

/-- The preprocessor keywords that a lexer still delivers, each with what the step right after it
delivers. -/
def keywords (l : Lexer) : List (Delivery × Option Token) :=
  l.deliveries.filterMap fun r ↦ (keywordDelivery? r).map (·, r.2.next.1)

/-- `Follows d k`: the directive `d` is the keyword `k.1`, and its argument is the quoted text that
was delivered right after that, if `k.2` is one. -/
structure Follows (d : Directive) (k : Delivery × Option Token) : Prop where
  delivery_eq : d.delivery = k.1
  argument_eq_some_iff : ∀ v, d.argument = some v ↔ k.2 = some ⟨.string, .text v⟩
  argument_eq_none_iff : d.argument = none ↔ ∀ t ∈ k.2, t.kind ≠ .string

/-- The quoted text of a step that was not looked ahead. -/
theorem argument_next (none : l.ahead = none) :
    (∀ v, l.next.1.bind argument? = some v ↔ l.next.1 = some ⟨.string, .text v⟩) ∧
      (l.next.1.bind argument? = Option.none ↔ ∀ t ∈ l.next.1, t.kind ≠ .string) := by
  cases next : l.next.1 with
  | none => simp
  | some t =>
    simp only [Option.bind_some, argument?_eq_some_iff, Option.some_inj, implies_true, true_and,
      Option.mem_def, forall_eq']
    constructor
    · intro silent string
      obtain ⟨lexeme, written⟩ := exists_lexeme_next none next
      obtain ⟨s, text⟩ := exists_text_of_lexeme written (.inr string)
      rw [argument?, if_pos string, text] at silent
      exact Option.some_ne_none s silent
    · intro other
      rw [argument?, if_neg other]

/-- A step announces a directive exactly if it delivers a keyword, and then the directive follows
the keyword. -/
theorem announced?_next (none : l.ahead = none) :
    Option.Rel Follows (announced? l.next)
      ((keywordDelivery? l.next).map (·, l.next.2.next.1)) := by
  cases next : l.next.1 with
  | none =>
    rw [announced?, keywordDelivery?, Lexer.delivery?, next]
    exact .none
  | some t =>
    by_cases keyword : t.kind = .preprocessorKeyword
    · obtain ⟨lexeme, written⟩ := exists_lexeme_next none next
      obtain ⟨w, text⟩ := exists_text_of_lexeme written (.inl keyword)
      have found : keyword? t = some w := by rw [keyword?, if_pos keyword, text]; rfl
      obtain ⟨quoted, silent⟩ := argument_next (Lexer.ahead_next l)
      simp only [announced?, keywordDelivery?, Lexer.delivery?, next, Option.bind_some, found,
        Option.map_some, Option.filter_some, keyword, decide_true, if_true]
      refine .some ⟨?_, quoted, silent⟩
      rw [keyword?_eq_some_iff.mp found]
      rfl
    · have other : keyword? t = Option.none := by rw [keyword?, if_neg keyword]
      simp only [announced?, keywordDelivery?, Lexer.delivery?, next, Option.bind_some, other,
        Option.map_none, Option.map_some, Option.filter_some, keyword, decide_false,
        Bool.false_eq_true, if_false]
      exact .none

/-- The directives that a lexer announces follow its keywords, one by one. -/
theorem forall₂_announced (none : l.ahead = none) :
    List.Forall₂ Follows (announced l) (keywords l) := by
  have steps : ∀ r ∈ l.deliveries, Option.Rel Follows (announced? r)
      ((keywordDelivery? r).map (·, r.2.next.1)) :=
    Lexer.forall_deliveries (I := fun _ ↦ True) (fun _ none _ ↦ ⟨announced?_next none, trivial⟩)
      none trivial
  refine List.rel_filterMap (R := fun r s ↦ r = s ∧ r ∈ l.deliveries) ?_ ?_
  · rintro r _ ⟨rfl, hr⟩
    exact steps r hr
  · exact List.forall₂_same.mpr fun r hr ↦ ⟨rfl, hr⟩

/-- Without what comes after them, the keywords are those among the tokens still to come. -/
theorem map_fst_keywords (l : Lexer) :
    (keywords l).map Prod.fst =
      l.remaining.filter (·.token.kind = .preprocessorKeyword) := by
  rw [keywords, Lexer.remaining, List.map_filterMap, List.filter_filterMap]
  congr 1
  funext r
  rw [Option.map_map]
  exact congrFun Option.map_id _

end Directive

/-! ## Places apart -/

/-- Neither of two stretches reaches into the other. -/
def Span.Apart (s t : Span) : Prop := s.stop ≤ t.start ∨ t.stop ≤ s.start

namespace Tiled

variable {p : Nat} {cs : List Char} {spans : List Span}

theorem le_start_gaps (h : Tiled p cs spans) (n : Nat) : ∀ g ∈ Span.gaps p n spans, p ≤ g.start := by
  induction h with
  | last => simp [Span.gaps]
  | next _ _ _ ih =>
    simp only [Span.gaps, List.forall_mem_cons, Nat.le_refl, true_and]
    intro g hg
    have := ih g hg
    omega

/-- The stretches of a tiling lie apart from the gaps around them. -/
theorem apart_gaps (h : Tiled p cs spans) (n : Nat) :
    ∀ s ∈ spans, ∀ g ∈ Span.gaps p n spans, s.Apart g := by
  induction h with
  | last => exact List.forall_mem_nil _
  | @next p gap lexeme rest spans _ _ after ih =>
    simp only [Span.gaps, List.forall_mem_cons]
    refine ⟨⟨.inr (Nat.le_refl _), fun g hg ↦ .inl (after.le_start_gaps n g hg)⟩, ?_⟩
    intro s hs
    refine ⟨.inr ?_, ih s hs⟩
    have := after.bounds s hs
    dsimp only
    omega

end Tiled

namespace Lexer

/-- The stretches that the tokens of a text cover are those of the tokens still to come at its
start. -/
theorem spans_eq (text : List Char) : spans text = (ofText text).remaining.map Delivery.span := by
  rw [spans, (drain_eq _).1, List.map_map]
  rfl

/-- Different tokens of a text lie apart. -/
theorem apart_of_mem_remaining {text : List Char} {d e : Delivery}
    (hd : d ∈ (ofText text).remaining) (he : e ∈ (ofText text).remaining) (other : d ≠ e) :
    d.span.Apart e.span := by
  have tiled : Tiled 0 text (spans text) := tiled_drain (ofText text) rfl
  have ordered := tiled.pairwise
  rw [spans_eq, List.pairwise_map] at ordered
  have apart : (ofText text).remaining.Pairwise fun d e ↦ d.span.Apart e.span :=
    ordered.imp fun h ↦ .inl h.2
  have : Std.Symm fun d e : Delivery ↦ d.span.Apart e.span := ⟨fun _ _ ↦ Or.symm⟩
  exact apart.forall hd he other

end Lexer

namespace Directive

/-- The directives of a text follow its keywords, one by one. -/
theorem forall₂_ofText (text : List Char) :
    List.Forall₂ Follows (ofText text) (keywords (.ofText text)) := by
  rw [ofText, scan_eq]
  exact forall₂_announced rfl

/-- The directives of a text are delivered as its preprocessor keywords, in order. -/
theorem map_delivery_ofText (text : List Char) :
    (ofText text).map delivery =
      (Lexer.ofText text).remaining.filter (·.token.kind = .preprocessorKeyword) := by
  rw [← map_fst_keywords, ← List.forall₂_eq_eq_eq, List.forall₂_map_left_iff,
    List.forall₂_map_right_iff]
  exact (forall₂_ofText text).imp fun _ _ h ↦ h.delivery_eq

theorem delivery_mem_remaining {text : List Char} {d : Directive} (h : d ∈ ofText text) :
    d.delivery ∈ (Lexer.ofText text).remaining := by
  have delivered := List.mem_map_of_mem (f := delivery) h
  rw [map_delivery_ofText] at delivered
  exact List.mem_of_mem_filter delivered

/-- A preprocessor keyword is spelled as a `#` with the keyword. -/
theorem eq_of_spelled {w rest : List Char} {s : String}
    (h : Spelled w rest ⟨.preprocessorKeyword, .text s⟩) : w = '#' :: s.toList := by
  cases h with
  | directive => rw [String.toList_ofList]

/-- **Directives.**  The directives of a text are its preprocessor keywords, in order, each once and
with its place and line.  A directive has an argument exactly if the very next step after its
keyword delivers quoted text, which is the argument then; it has none if another token, a skipped
word or the end comes next.  And a directive is written as a `#` with its keyword, at a place that
reaches into no gap, and so into no comment, and into no other token, and so into no quoted text. -/
theorem directives_exact (text : List Char) :
    (ofText text).map delivery =
        (Lexer.ofText text).remaining.filter (·.token.kind = .preprocessorKeyword) ∧
      List.Forall₂
        (fun d (k : Delivery × Option Token) ↦ d.delivery = k.1 ∧
          (∀ v, d.argument = some v ↔ k.2 = some ⟨.string, .text v⟩) ∧
          (d.argument = none ↔ ∀ t ∈ k.2, t.kind ≠ .string))
        (ofText text) (keywords (.ofText text)) ∧
      ∀ d ∈ ofText text,
        d.span.slice text = '#' :: d.keyword.toList ∧
        (∀ g ∈ Span.gaps 0 text.length (Lexer.spans text), d.span.Apart g) ∧
        ∀ e ∈ (Lexer.ofText text).remaining, e ≠ d.delivery → d.span.Apart e.span := by
  refine ⟨map_delivery_ofText text, ?_, fun d hd ↦ ?_⟩
  · exact (forall₂_ofText text).imp fun _ _ h ↦
      ⟨h.delivery_eq, h.argument_eq_some_iff, h.argument_eq_none_iff⟩
  · have delivered := delivery_mem_remaining hd
    have tiled : Tiled 0 text (Lexer.spans text) := Lexer.tiled_drain (.ofText text) rfl
    refine ⟨?_, ?_, fun e he other ↦ ?_⟩
    · exact eq_of_spelled (Lexer.spelled_of_mem_remaining _ delivered)
    · apply tiled.apart_gaps text.length d.span
      rw [Lexer.spans_eq]
      exact List.mem_map_of_mem delivered
    · exact Lexer.apart_of_mem_remaining delivered he other.symm

/-- A comment between a directive and its argument does not matter, and a directive in it is none; a
skipped word keeps the quoted text after it from being an argument, also if the text looks like a
directive. -/
theorem directives_exact_skipped :
    let text := "#include /* 'x' */ 'a b' // #iUniform\n#iKeyboard #foo '#c'".toList
    let keyboard : Directive := ⟨"iKeyboard", 1, ⟨38, 48⟩, none⟩
    let quoted : Delivery := ⟨⟨.string, .text "#c"⟩, ⟨54, 58⟩, 1⟩
    ofText text = [⟨"include", 0, ⟨0, 8⟩, some "a b"⟩, keyboard] ∧
      keyboard.span.slice text = '#' :: keyboard.keyword.toList ∧
      (⟨24, 38⟩ ∈ Span.gaps 0 text.length (Lexer.spans text) ∧ keyboard.span.Apart ⟨24, 38⟩) ∧
      quoted ∈ (Lexer.ofText text).remaining ∧ quoted ≠ keyboard.delivery ∧
      keyboard.span.Apart quoted.span := by
  intro text keyboard quoted
  obtain ⟨-, -, places⟩ := directives_exact text
  have found : ofText text = [⟨"include", 0, ⟨0, 8⟩, some "a b"⟩, keyboard] := by decide +kernel
  obtain ⟨written, gaps, tokens⟩ := places keyboard (by rw [found]; simp)
  have gap : ⟨24, 38⟩ ∈ Span.gaps 0 text.length (Lexer.spans text) := by decide +kernel
  have delivered : quoted ∈ (Lexer.ofText text).remaining := by decide +kernel
  have other : quoted ≠ keyboard.delivery := by decide
  exact ⟨found, written, ⟨gap, gaps _ gap⟩, delivered, other, tokens quoted delivered other⟩

end Directive

end ShaderChannels
