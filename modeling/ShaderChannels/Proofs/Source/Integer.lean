import ShaderChannels.Proofs.Number.Whole
import ShaderChannels.Proofs.Source.Escaping

/-!
# Integers

An integer is kept as the magnitude nearest to it and shown as the shortest decimal of that.  Up to
`2 ^ 53` both are exact: however many zeros it was written with in front, what is shown is its
numeral, and the numeral is read as the same token again.

* `Spelled.integer_eq` — an integer is spelled with digits, which give its value.
* `Lexer.remaining_toDigits` — a numeral is one token.
* `Lexer.displayed_integer` — hence an integer that is shown and read again is the same.
-/

namespace ShaderChannels

/-- A token of the class of integers is spelled with digits, and its value is theirs. -/
theorem Spelled.integer_eq {w rest : List Char} {t : Token} (h : Spelled w rest t)
    (kind : t.kind = .integer) :
    w ≠ [] ∧ (∀ c ∈ w, c.isDigit) ∧
      t = ⟨.integer, .number (.ofDecimal (Nat.ofDigitChars 10 w 0) 0)⟩ := by
  cases h with
  | integer ne digits =>
    rw [digitsValue_eq]
    exact ⟨ne, digits, rfl⟩
  | _ => exact nomatch kind

/-- A digit starts no trivia. -/
theorem Trivia.split_digit {c : Char} (digit : c.isDigit) (cs : List Char) :
    split (c :: cs) = ([], c :: cs) := by
  have blank : isBlank c = false := by
    rw [Bool.eq_false_iff]
    intro blank
    simp only [isBlank, Bool.or_eq_true, beq_iff_eq] at blank
    rcases blank with (((rfl | rfl) | rfl) | rfl) | rfl <;> exact absurd digit (by decide)
  have slash : c ≠ '/' := by
    rintro rfl
    exact absurd digit (by decide)
  exact split_cons_eq_iff.mpr ⟨blank, fun opens ↦ absurd opens slash⟩

namespace Lexer

/-- The numeral of a number is one token. -/
theorem remaining_toDigits (n : Nat) :
    (ofText (Nat.toDigits 10 n)).remaining =
      [⟨⟨.integer, .number (.ofDecimal n 0)⟩, ⟨0, (Nat.toDigits 10 n).length⟩, 0⟩] := by
  have digits : ∀ c ∈ Nat.toDigits 10 n, c.isDigit := by
    intro c hc
    exact Nat.isDigit_of_mem_toDigits (b := 10) (by decide) (by decide) hc
  have spelled : Spelled (Nat.toDigits 10 n) [] ⟨.integer, .number (.ofDecimal n 0)⟩ := by
    have numeral : Spelled (Nat.toDigits 10 n) [] _ :=
      .integer Nat.toDigits_ne_nil digits (fun _ none ↦ nomatch none)
    rwa [digitsValue_eq, Nat.ofDigitChars_ten_toDigits] at numeral
  have visible : Trivia.split (Nat.toDigits 10 n ++ []) = ([], Nat.toDigits 10 n ++ []) := by
    obtain ⟨c, cs, form⟩ := List.exists_cons_of_ne_nil (Nat.toDigits_ne_nil (b := 10) (n := n))
    rw [List.append_nil, form]
    exact Trivia.split_digit (digits c (form ▸ List.mem_cons_self)) cs
  have tokens := remaining_of_spelled spelled visible
  have nothing : (ofText []).remaining = [] := remaining_of_atEnd rfl
  rwa [nothing, List.append_nil] at tokens

/-- **Integers.**  Every token of the class of integers is written with digits.  If the number they
give, with any zeros in front, is at most `2 ^ 53`, then the token is shown as the numeral of that
number, and the text shown is read as that token and nothing else. -/
theorem displayed_integer (text : List Char) :
    ∀ d ∈ (ofText text).remaining, d.token.kind = .integer →
      let digits := d.span.slice text
      let n := Nat.ofDigitChars 10 digits 0
      let shown := d.token.value.display
      (digits ≠ [] ∧ ∀ c ∈ digits, c.isDigit) ∧
        (n ≤ 2 ^ 53 →
          shown = toString n ∧
            (ofText shown.toList).remaining = [⟨d.token, ⟨0, shown.length⟩, 0⟩]) := by
  intro d hd kind digits n shown
  obtain ⟨ne, all, token⟩ := (spelled_of_mem_remaining d hd).integer_eq kind
  refine ⟨⟨ne, all⟩, fun small ↦ ?_⟩
  have exact : shown = toString n := by
    change d.token.value.display = _
    rw [token]
    exact Layout.plain_write_ofDecimal small
  have numeral : shown.toList = Nat.toDigits 10 n := by
    rw [exact, Nat.toString_eq_ofList_toDigits, String.toList_ofList]
  refine ⟨exact, ?_⟩
  rw [← String.length_toList, numeral, token]
  exact remaining_toDigits n

/-- The limit itself, with zeros in front and a name behind. -/
theorem displayed_integer_limit :
    let text := "x = 0009007199254740992y".toList
    let token : Token := ⟨.integer, .number (.ofDecimal (2 ^ 53) 0)⟩
    let d : Delivery := ⟨token, ⟨4, 23⟩, 0⟩
    d ∈ (ofText text).remaining ∧ d.token.kind = .integer ∧
      Nat.ofDigitChars 10 (d.span.slice text) 0 ≤ 2 ^ 53 ∧
      token.value.display = "9007199254740992" ∧
      (ofText "9007199254740992".toList).remaining = [⟨token, ⟨0, 16⟩, 0⟩] := by
  intro text token d
  have found : d ∈ (ofText text).remaining := by decide +kernel
  have value : Nat.ofDigitChars 10 (d.span.slice text) 0 = 2 ^ 53 := by decide +kernel
  obtain ⟨-, shown⟩ := displayed_integer text d found rfl
  obtain ⟨numeral, again⟩ := shown value.le
  have display : d.token.value.display = "9007199254740992" := by
    rw [numeral, value]
    rfl
  rw [display] at again
  exact ⟨found, rfl, value.le, display, again⟩

end Lexer

end ShaderChannels
