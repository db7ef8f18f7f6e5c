import ShaderChannels.Proofs.Source.Resumption
import ShaderChannels.Proofs.Source.Spelling

/-!
# Escaping

Any text can be written in quotes: a backslash goes before each quote of the kind that encloses it
and before each backslash, and may go before any other character.  Reading takes the backslashes out
again, whichever characters carried one.

* `Quoted.escape` — a text with a backslash before each of its characters at chosen places.
* `Literal.escape` — it is the inside of a text in quotes, whose value is the text.
* `Lexer.remaining_of_spelled` — what is spelled like a token at the start of a text is the first
  token, and the others are those of the rest.
* `Lexer.escaped_literal` — hence every text is read back from its spellings in quotes.
-/

namespace ShaderChannels

namespace Quoted

/-- The text `s` with a backslash before each character at a `chosen` place. -/
def escape (chosen : Nat → Bool) : List Char → List Char
  | [] => []
  | c :: s =>
    if chosen 0 then '\\' :: c :: escape (fun i ↦ chosen (i + 1)) s
    else c :: escape (fun i ↦ chosen (i + 1)) s

/-- The `chosen` places of `s` are enough to write it between quotes `q`: among them are those of
all such quotes and of all backslashes. -/
def Suffices (q : Char) (chosen : Nat → Bool) (s : List Char) : Prop :=
  ∀ i c, s[i]? = some c → c = q ∨ c = '\\' → chosen i

theorem Suffices.tail {q c : Char} {chosen : Nat → Bool} {s : List Char}
    (h : Suffices q chosen (c :: s)) : Suffices q (fun i ↦ chosen (i + 1)) s :=
  fun i d hd special ↦ h (i + 1) d hd special

end Quoted

/-- An escaped text in front of the rest of a text in quotes is part of it, and adds itself to the
value. -/
theorem Literal.escape {q : Char} {chosen : Nat → Bool} {s cs rest value : List Char}
    (enough : Quoted.Suffices q chosen s) (h : Literal q cs rest value) :
    Literal q (Quoted.escape chosen s ++ cs) rest (s ++ value) := by
  induction s generalizing chosen with
  | nil => exact h
  | cons c s ih =>
    have later := ih enough.tail
    rw [Quoted.escape]
    split
    next => exact .escaped later
    next plain =>
      -- a character without a backslash is neither the quote nor a backslash
      have special : ¬ (c = q ∨ c = '\\') := fun special ↦ plain (enough 0 c rfl special)
      rw [not_or] at special
      exact .plain special.1 special.2 later

/-- A quote starts no trivia. -/
theorem Trivia.split_quote {q : Char} (quote : q = '\'' ∨ q = '"') (cs : List Char) :
    split (q :: cs) = ([], q :: cs) := by
  rw [split_cons_eq_iff]
  rcases quote with rfl | rfl
  · exact ⟨rfl, fun slash ↦ absurd slash (by decide)⟩
  · exact ⟨rfl, fun slash ↦ absurd slash (by decide)⟩

namespace Lexer

/-- What is spelled like a token at the start of a text, where no trivia starts, is delivered by the
first step. -/
theorem next_of_spelled {w rest : List Char} {t : Token} (h : Spelled w rest t)
    (visible : Trivia.split (w ++ rest) = ([], w ++ rest)) :
    (ofText (w ++ rest)).next =
      (some t, ⟨⟨w.length, w.count '\n', rest⟩, none, ⟨0, w.length⟩, 0⟩) := by
  obtain ⟨cut, read⟩ := h.read
  have scan : Scan.ofText (ofText (w ++ rest)).cursor.rest = ⟨[], w, rest⟩ := by
    simp only [ofText, Cursor.ofText, Scan.ofText, visible, cut]
  rw [next_of_ahead rfl]
  simp only [lookAt, scan, Scan.token?, read]
  simp [ofText, Cursor.ofText, Cursor.past]

/-- The other tokens of such a text are those of the rest, with its place added to theirs. -/
theorem remaining_of_spelled {w rest : List Char} {t : Token} (h : Spelled w rest t)
    (visible : Trivia.split (w ++ rest) = ([], w ++ rest)) :
    (ofText (w ++ rest)).remaining =
      ⟨t, ⟨0, w.length⟩, 0⟩ :: (ofText rest).remaining.map (.shift w.length (w.count '\n')) := by
  have after : (ofText (w ++ rest)).next.2.next =
      ((ofText rest).shift w.length (w.count '\n')).next := by
    rw [next_of_spelled h visible]
    apply next_congr rfl rfl
    simp [ofText, shift, Cursor.ofText, Cursor.shift]
  rw [remaining_eq, remaining_eq (ofText _).next.2, after, ← remaining_eq, remaining_shift,
    delivery?, next_of_spelled h visible]
  rfl

/-- Text in quotes at the start of a text is the first step, and the first of the tokens. -/
theorem remaining_of_literal {q : Char} (quote : q = '\'' ∨ q = '"') {cs rest value : List Char}
    (h : Literal q cs rest value) :
    let token : Token := ⟨.string, .text (String.ofList value)⟩
    let l := ofText (q :: cs ++ rest)
    l.next.1 = some token ∧ l.next.2.lastSpan = ⟨0, (q :: cs).length⟩ ∧
      l.remaining = ⟨token, ⟨0, (q :: cs).length⟩, 0⟩ ::
        (ofText rest).remaining.map (.shift (q :: cs).length ((q :: cs).count '\n')) := by
  have spelled : Spelled (q :: cs) rest ⟨.string, .text (String.ofList value)⟩ := .string quote h
  have visible := Trivia.split_quote quote (cs ++ rest)
  refine ⟨?_, ?_, remaining_of_spelled spelled visible⟩
  · rw [next_of_spelled spelled visible]
  · rw [next_of_spelled spelled visible]

/-- **Escaped text.**  Any text, written between quotes of either kind with backslashes at places that
suffice, is read as one token of quoted text whose value is the text and which covers the literal
with both quotes, whatever follows; the other tokens are those of what follows.  Without the closing
quote, at the end of the text, the token has the same value and goes to the end. -/
theorem escaped_literal {q : Char} (quote : q = '\'' ∨ q = '"') {chosen : Nat → Bool}
    {s : List Char} (enough : Quoted.Suffices q chosen s) :
    let token : Token := ⟨.string, .text (String.ofList s)⟩
    let literal := q :: (Quoted.escape chosen s ++ [q])
    let unclosed := q :: Quoted.escape chosen s
    (∀ more, let l := ofText (literal ++ more)
      l.next.1 = some token ∧ l.next.2.lastSpan = ⟨0, literal.length⟩ ∧
        l.remaining = ⟨token, ⟨0, literal.length⟩, 0⟩ ::
          (ofText more).remaining.map (.shift literal.length (literal.count '\n'))) ∧
      let l := ofText unclosed
      l.next.1 = some token ∧ l.next.2.lastSpan = ⟨0, unclosed.length⟩ ∧
        l.remaining = [⟨token, ⟨0, unclosed.length⟩, 0⟩] := by
  intro token literal unclosed
  have value : s ++ [] = s := List.append_nil s
  constructor
  · intro more
    have closed : Literal q (Quoted.escape chosen s ++ [q]) more (s ++ []) := .escape enough .close
    rw [value] at closed
    exact remaining_of_literal quote closed
  · have ended : Literal q (Quoted.escape chosen s ++ []) [] (s ++ []) := .escape enough .unclosed
    rw [value, List.append_nil] at ended
    obtain ⟨first, span, tokens⟩ := remaining_of_literal quote ended
    rw [List.append_nil] at first span tokens
    have nothing : (ofText []).remaining = [] := remaining_of_atEnd rfl
    rw [nothing] at tokens
    exact ⟨first, span, tokens⟩

/-- A quote and a backslash at the end, both escaped, and a character that need not be. -/
theorem escaped_literal_quote :
    let s := "a\"b\\".toList
    let chosen : Nat → Bool := fun i ↦ i != 0
    Quoted.Suffices '"' chosen s ∧ Quoted.escape chosen s = "a\\\"\\b\\\\".toList ∧
      (ofText "\"a\\\"\\b\\\\\"'//".toList).next.1 = some ⟨.string, .text "a\"b\\"⟩ ∧
      (ofText "\"a\\\"\\b\\\\".toList).remaining =
        [⟨⟨.string, .text "a\"b\\"⟩, ⟨0, 8⟩, 0⟩] := by
  intro s chosen
  have enough : Quoted.Suffices '"' chosen s := by
    intro i c hc special
    cases i with
    | zero =>
      obtain rfl : 'a' = c := Option.some.inj hc
      exact absurd special (by decide)
    | succ i => rfl
  obtain ⟨closed, unclosed⟩ := escaped_literal (.inr rfl) enough
  exact ⟨enough, rfl, (closed "'//".toList).1, unclosed.2.2⟩

end Lexer

end ShaderChannels
