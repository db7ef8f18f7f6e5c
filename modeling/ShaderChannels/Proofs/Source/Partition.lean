import ShaderChannels.Proofs.Source.Gap

/-!
# Partition of a text

The tokens that a text is drained to and the gaps around them make up the text: nothing is lost,
covered twice, or passed over in any way but as a gap.

`Tiled p cs spans` says this of the characters `cs` that lie from offset `p` on.  It is built along
the characters, so that one step of a lexer adds one tile to it, and a step without a token joins
the gap that follows (`Tiled.prepend`).  What it says about offsets is read off it afterwards.

* `Lexer.tiled_drain` — what lies ahead of a lexer is tiled by what it drains to.
* `Lexer.drain_partition` — the same for a whole text, in terms of its offsets.
-/

namespace ShaderChannels

/-! ## Stretches of a text -/

namespace Span

/-- The characters of a text that a span covers. -/
def slice (s : Span) (text : List Char) : List Char := (text.drop s.start).take s.length

/-- The stretches from `p` to `n` that lie before, between and after some spans. -/
def gaps (p n : Nat) : List Span → List Span
  | [] => [⟨p, n⟩]
  | s :: ss => ⟨p, s.start⟩ :: gaps s.stop n ss

/-- A stretch that starts at the characters `cs ++ rest` and is as long as `cs` covers `cs`. -/
theorem slice_of_drop {text cs rest : List Char} {p : Nat} (h : text.drop p = cs ++ rest) :
    slice ⟨p, p + cs.length⟩ text = cs := by
  have : p + cs.length - p = cs.length := Nat.add_sub_cancel_left p cs.length
  rw [slice, length, this, h, List.take_left]

end Span

/-! ## Tilings -/

/-- `Tiled p cs spans`: the characters `cs`, the first of which has offset `p`, are gaps with
non-empty stretches between them, and these stretches are `spans`. -/
inductive Tiled : Nat → List Char → List Span → Prop
  | /-- A gap that goes to the end. -/
    last {p : Nat} {gap : List Char} : Gap gap [] → Tiled p gap []
  | /-- A gap with a stretch after it. -/
    next {p : Nat} {gap lexeme rest : List Char} {spans : List Span} :
      Gap gap (lexeme ++ rest) → lexeme ≠ [] →
      Tiled (p + gap.length + lexeme.length) rest spans →
      Tiled p (gap ++ (lexeme ++ rest))
        (⟨p + gap.length, p + gap.length + lexeme.length⟩ :: spans)

namespace Tiled

variable {p : Nat} {cs : List Char} {spans : List Span}

/-- A gap in front joins the first gap. -/
theorem prepend {g : List Char} (hg : Gap g cs) (h : Tiled (p + g.length) cs spans) :
    Tiled p (g ++ cs) spans := by
  cases h with
  | last hl =>
    rw [← List.append_nil cs] at hg
    exact .last (hg.append hl)
  | @next _ gap lexeme rest spans hn ne ht =>
    have after : Tiled (p + (g ++ gap).length + lexeme.length) rest spans := by
      simpa [Nat.add_assoc] using ht
    have joined := Tiled.next (hg.append hn) ne after
    simpa [Nat.add_assoc] using joined

/-- The stretches lie in order within the characters, and none is empty. -/
theorem bounds (h : Tiled p cs spans) :
    ∀ s ∈ spans, p ≤ s.start ∧ s.start < s.stop ∧ s.stop ≤ p + cs.length := by
  induction h with
  | last => simp
  | @next p gap lexeme rest spans _ ne _ ih =>
    have := List.length_pos_iff.mpr ne
    intro s hs
    simp only [List.length_append]
    rcases List.mem_cons.mp hs with rfl | hs
    · dsimp only
      omega
    · have := ih s hs
      omega

/-- Each stretch ends before the next one starts. -/
theorem pairwise (h : Tiled p cs spans) :
    spans.Pairwise fun s t ↦ s.start < t.start ∧ s.stop ≤ t.start := by
  induction h with
  | last => exact .nil
  | @next p gap lexeme rest spans _ ne ht ih =>
    have := List.length_pos_iff.mpr ne
    refine List.pairwise_cons.mpr ⟨fun t hmem ↦ ?_, ih⟩
    have := ht.bounds t hmem
    dsimp only
    omega

/-- What lies around the stretches are gaps of the text. -/
theorem gaps (h : Tiled p cs spans) {text : List Char} (hcs : text.drop p = cs)
    (hp : p ≤ text.length) :
    ∀ g ∈ Span.gaps p text.length spans,
      g.start ≤ g.stop ∧ Gap (g.slice text) (text.drop g.stop) := by
  induction h with
  | @last p gap hl =>
    have len : text.length = p + gap.length := by
      rw [← hcs, List.length_drop]
      omega
    intro g hg
    obtain rfl := List.mem_singleton.mp hg
    rw [← List.append_nil gap] at hcs
    rw [len, Span.slice_of_drop hcs]
    refine ⟨Nat.le_add_right _ _, ?_⟩
    rwa [← List.drop_drop, hcs, List.drop_left]
  | @next p gap lexeme rest spans hn ne ht ih =>
    have after : text.drop (p + gap.length) = lexeme ++ rest := by
      rw [← List.drop_drop, hcs, List.drop_left]
    have beyond : text.drop (p + gap.length + lexeme.length) = rest := by
      rw [← List.drop_drop, after, List.drop_left]
    have len : text.length = p + (gap.length + (lexeme.length + rest.length)) := by
      rw [← List.length_append, ← List.length_append, ← hcs, List.length_drop]
      omega
    intro g hg
    rcases List.mem_cons.mp hg with rfl | hg
    · rw [Span.slice_of_drop hcs, after]
      exact ⟨Nat.le_add_right _ _, hn⟩
    · exact ih beyond (by omega) g hg

end Tiled

namespace Lexer

/-! ## Draining -/

/-- A place from which nothing is delivered adds no stretch to the tiling after it. -/
theorem tiled_of_token?_eq_none {c : Cursor} {spans : List Span}
    (h : (lookAt c).1.token? = none)
    (after : Tiled (lookAt c).2.pos (lookAt c).2.rest spans) : Tiled c.pos c.rest spans := by
  rw [pos_lookAt, stop_lookAt, rest_lookAt, Nat.add_assoc, ← List.length_append] at after
  have joined := after.prepend (Scan.gap_lexeme h)
  rwa [List.append_assoc, Scan.append_ofText] at joined

/-- A place from which a token is delivered adds its stretch to the tiling after it. -/
theorem tiled_of_token?_eq_some {c : Cursor} {t : Token} {spans : List Span}
    (h : (lookAt c).1.token? = some t)
    (after : Tiled (lookAt c).2.pos (lookAt c).2.rest spans) :
    Tiled c.pos c.rest ((lookAt c).1.span :: spans) := by
  rw [pos_lookAt, stop_lookAt, rest_lookAt] at after
  have tiled := Tiled.next (Scan.gap_trivia c.rest) (Scan.lexeme_ne_nil h) after
  rwa [Scan.append_ofText] at tiled

/-- What lies ahead of a lexer is tiled by the tokens it drains to. -/
theorem tiled_drain (l : Lexer) (h : l.ahead = none) :
    Tiled l.cursor.pos l.cursor.rest (l.drain.1.map Placed.span) := by
  fun_induction drain l with
  | case1 l hend =>
    rw [atEnd_of_ahead h, List.isEmpty_iff] at hend
    rw [hend]
    exact .last .nil
  | case2 l _ ht ih =>
    have after := ih (ahead_next l)
    rw [next_of_ahead h] at ht after ⊢
    exact tiled_of_token?_eq_none ht after
  | case3 l _ t ht ih =>
    have after := ih (ahead_next l)
    rw [next_of_ahead h] at ht after ⊢
    exact tiled_of_token?_eq_some ht after

/-- The stretches that the tokens of a text cover, in order of delivery. -/
def spans (text : List Char) : List Span := (ofText text).drain.1.map Placed.span

/-- **Partition.**  The tokens of a text cover stretches of it that are not empty, come one after the
other and do not overlap, and all that is left before, between and after them are gaps: blanks,
comments and `#` words that name no preview directive. -/
theorem drain_partition (text : List Char) :
    (∀ s ∈ spans text, s.start < s.stop ∧ s.stop ≤ text.length) ∧
      (spans text).Pairwise (fun s t ↦ s.start < t.start ∧ s.stop ≤ t.start) ∧
      ∀ g ∈ Span.gaps 0 text.length (spans text),
        g.start ≤ g.stop ∧ Gap (g.slice text) (text.drop g.stop) := by
  have tiled : Tiled 0 text (spans text) := tiled_drain (ofText text) rfl
  refine ⟨fun s hs ↦ ?_, tiled.pairwise, tiled.gaps rfl (Nat.zero_le _)⟩
  obtain ⟨-, lt, le⟩ := tiled.bounds s hs
  exact ⟨lt, by rwa [Nat.zero_add] at le⟩

end Lexer

end ShaderChannels
