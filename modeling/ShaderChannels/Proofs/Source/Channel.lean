import ShaderChannels.Proofs.Source.Directive

/-!
# Channel numbers

The word of a channel directive ends in the number of its channel.  The number is read digit by digit
and given up as soon as it does not fit a byte, so that it never wraps around.  What else the word may
end in is told by the characters of words.

* `Directive.go_eq` — reading is given up exactly if the whole number does not fit.
* `Directive.byte?_eq_some_iff` — what is read as a byte.
* `Directive.isPart_of_mem_keyword` — what the keyword of a directive in a text is made of.
* `Directive.channel_exact` — hence which directives of a text have a channel, and which one.
-/

namespace ShaderChannels.Directive

variable {text ds : List Char} {d : Directive} {b : UInt8}

/-! ## Bytes -/

/-- More digits never make a number smaller. -/
theorem le_ofDigitChars (ds : List Char) (n : Nat) : n ≤ Nat.ofDigitChars 10 ds n := by
  rw [Nat.ofDigitChars_eq_ofDigitChars_zero]
  have scaled : n ≤ 10 ^ ds.length * n := Nat.le_mul_of_pos_left n (Nat.pow_pos (by decide))
  omega

/-- Reading is given up at some digit exactly if the whole number is too large. -/
theorem go_eq {n : Nat} (fits : n < 256) (ds : List Char) :
    byte?.go n ds =
      if Nat.ofDigitChars 10 ds n < 256 then some (Nat.ofDigitChars 10 ds n) else none := by
  induction ds generalizing n with
  | nil => rw [byte?.go, Nat.ofDigitChars_nil, if_pos fits]
  | cons c ds ih =>
    rw [byte?.go, Nat.ofDigitChars_cons]
    split_ifs with still whole whole
    · rw [ih still, if_pos whole]
    · rw [ih still, if_neg whole]
    · exact absurd (Nat.lt_of_le_of_lt (le_ofDigitChars ds _) whole) still
    · rfl

/-- Without a plus sign, exactly what consists of digits and has a value that fits is read as a
byte, whatever the number of digits. -/
theorem byte?_eq_some_iff (plain : ds.head? ≠ some '+') :
    byte? ds = some b ↔ ds ≠ [] ∧ (∀ c ∈ ds, c.isDigit) ∧ digitsValue ds = b.toNat := by
  rw [byte?, if_neg plain, digitsValue_eq]
  by_cases digits : ds ≠ [] ∧ ∀ c ∈ ds, c.isDigit
  · have none : ¬ (ds.isEmpty || !ds.all Char.isDigit) := by simpa using digits
    rw [if_neg none, go_eq (by decide), Option.map_eq_some_iff]
    constructor
    · rintro ⟨n, found, rfl⟩
      obtain ⟨fits, value⟩ := Option.ite_none_right_eq_some.mp found
      obtain rfl := Option.some.inj value
      exact ⟨digits.1, digits.2, (UInt8.toNat_ofNat_of_lt' fits).symm⟩
    · rintro ⟨-, -, value⟩
      have fits : Nat.ofDigitChars 10 ds 0 < 256 := value ▸ b.toNat_lt
      exact ⟨_, if_pos fits, by rw [value, UInt8.ofNat_toNat]⟩
  · have some : ds.isEmpty || !ds.all Char.isDigit := by
      simpa [or_iff_not_imp_left] using digits
    rw [if_pos some]
    exact ⟨nofun, fun h ↦ absurd ⟨h.1, h.2.1⟩ digits⟩

/-- A number that fits is read as itself. -/
theorem byte?_of_lt (plain : ds.head? ≠ some '+') (ne : ds ≠ []) (digits : ∀ c ∈ ds, c.isDigit)
    (fits : digitsValue ds < 256) : byte? ds = some (.ofNat (digitsValue ds)) :=
  (byte?_eq_some_iff plain).mpr ⟨ne, digits, (UInt8.toNat_ofNat_of_lt' fits).symm⟩

/-- No part of a word starts with a plus sign. -/
theorem head?_ne_plus (parts : ∀ c ∈ ds, Word.isPart c) : ds.head? ≠ some '+' := by
  intro plus
  exact absurd (parts _ (List.mem_of_head? plus)) (by decide)

/-- Part of a word is not read as a byte if it is empty, if a letter or an underscore is in it, or if
its value does not fit. -/
theorem byte?_eq_none_iff (parts : ∀ c ∈ ds, Word.isPart c) :
    byte? ds = none ↔ ds = [] ∨ (∃ c ∈ ds, c.isAlpha ∨ c = '_') ∨ 256 ≤ digitsValue ds := by
  have plain := head?_ne_plus parts
  constructor
  · intro unread
    by_contra readable
    obtain ⟨ne, other, fits⟩ : ds ≠ [] ∧ (∀ c ∈ ds, ¬ (c.isAlpha ∨ c = '_')) ∧
        digitsValue ds < 256 := by simpa using readable
    have digits : ∀ c ∈ ds, c.isDigit := by
      intro c hc
      have part := parts c hc
      rw [Word.isPart, Char.isAlphanum, Bool.or_eq_true, Bool.or_eq_true, beq_iff_eq] at part
      obtain (letter | digit) | underscore := part
      · exact absurd (.inl letter) (other c hc)
      · exact digit
      · exact absurd (.inr underscore) (other c hc)
    rw [byte?_of_lt plain ne digits fits] at unread
    exact Option.some_ne_none _ unread
  · intro unreadable
    rw [Option.eq_none_iff_forall_ne_some]
    intro b found
    obtain ⟨ne, digits, value⟩ := (byte?_eq_some_iff plain).mp found
    obtain empty | ⟨c, hc, other⟩ | large := unreadable
    · exact ne empty
    · have start : Word.isStart c := by simpa [Word.isStart] using other
      exact Bool.eq_false_iff.mp (Lexeme.isDigit_of_isStart start) (digits c hc)
    · have := b.toNat_lt
      omega

/-! ## Keywords -/

/-- The keyword of a directive in a text is made of letters, digits and underscores. -/
theorem isPart_of_mem_keyword (h : d ∈ ofText text) : ∀ c ∈ d.keyword.toList, Word.isPart c := by
  have spelled := Lexer.spelled_of_mem_remaining _ (delivery_mem_remaining h)
  generalize d.delivery.span.slice text = w at spelled
  generalize text.drop d.delivery.span.stop = rest at spelled
  rw [delivery] at spelled
  generalize keyword : d.keyword = s at spelled
  cases spelled with
  | directive parts => rwa [String.toList_ofList]

/-- A keyword with the stem of channel directives ends in the number of the channel. -/
theorem channel?_of_stem (h : d.keyword.toList = "iChannel".toList ++ ds) :
    d.channel? = byte? ds := by
  have stem : Word.channelStem.toList.isPrefixOf d.keyword.toList := by
    rw [h]
    exact List.isPrefixOf_iff_prefix.mpr (List.prefix_append _ _)
  rw [channel?, if_pos stem, h]
  exact congrArg byte? List.drop_left

/-- A keyword without the stem names no channel. -/
theorem channel?_of_not_stem (h : ¬ "iChannel".toList <+: d.keyword.toList) :
    d.channel? = none := by
  rw [channel?, if_neg]
  rwa [List.isPrefixOf_iff_prefix]

/-- **Channel numbers.**  A directive in a text has a channel exactly if its keyword is the stem of
channel directives with a number after it, which is written with any digits, as many as there may
be, and is at most 255; that number is the channel.  Where the stem has nothing after it, or a letter
or an underscore among what it has, or a number from 256 on, there is no channel, and nowhere else,
and no other keyword has one. -/
theorem channel_exact (text : List Char) :
    ∀ d ∈ ofText text,
      (∀ n : Nat, (∃ b, d.channel? = some b ∧ b.toNat = n) ↔
        ∃ ds, d.keyword.toList = "iChannel".toList ++ ds ∧ ds ≠ [] ∧ (∀ c ∈ ds, c.isDigit) ∧
          digitsValue ds = n ∧ n ≤ 255) ∧
      (∀ ds, d.keyword.toList = "iChannel".toList ++ ds →
        (d.channel? = none ↔
          ds = [] ∨ (∃ c ∈ ds, c.isAlpha ∨ c = '_') ∨ 256 ≤ digitsValue ds)) ∧
      (¬ "iChannel".toList <+: d.keyword.toList → d.channel? = none) := by
  intro d hd
  have parts (ds : List Char) (stem : d.keyword.toList = "iChannel".toList ++ ds) :
      ∀ c ∈ ds, Word.isPart c := by
    intro c hc
    apply isPart_of_mem_keyword hd
    rw [stem]
    exact List.mem_append_right _ hc
  refine ⟨fun n ↦ ⟨?_, ?_⟩, fun ds stem ↦ ?_, channel?_of_not_stem⟩
  · rintro ⟨b, found, rfl⟩
    have stem : "iChannel".toList <+: d.keyword.toList := by
      by_contra other
      rw [channel?_of_not_stem other] at found
      exact nomatch found
    obtain ⟨ds, hds⟩ := stem
    rw [channel?_of_stem hds.symm, byte?_eq_some_iff (head?_ne_plus (parts ds hds.symm))] at found
    obtain ⟨ne, digits, value⟩ := found
    exact ⟨ds, hds.symm, ne, digits, value, Nat.le_of_lt_succ b.toNat_lt⟩
  · rintro ⟨ds, stem, ne, digits, rfl, fits⟩
    have small : digitsValue ds < 256 := Nat.lt_succ_of_le fits
    refine ⟨.ofNat (digitsValue ds), ?_, UInt8.toNat_ofNat_of_lt' small⟩
    rw [channel?_of_stem stem]
    exact byte?_of_lt (head?_ne_plus (parts ds stem)) ne digits small
  · rw [channel?_of_stem stem]
    exact byte?_eq_none_iff (parts ds stem)

/-- Zeros in front do not matter, and a number does not wrap around however long it is. -/
theorem channel_exact_padded :
    let text := "#iChannel0000000255 'a.png'\n#iChannel4294967296 #iChannel7_".toList
    let padded : Directive := ⟨"iChannel0000000255", 0, ⟨0, 19⟩, some "a.png"⟩
    let long : Directive := ⟨"iChannel4294967296", 1, ⟨28, 47⟩, none⟩
    let scored : Directive := ⟨"iChannel7_", 1, ⟨48, 59⟩, none⟩
    ofText text = [padded, long, scored] ∧ (∃ b, padded.channel? = some b ∧ b.toNat = 255) ∧
      256 ≤ digitsValue "4294967296".toList ∧ long.channel? = none ∧ scored.channel? = none := by
  intro text padded long scored
  have found : ofText text = [padded, long, scored] := by decide +kernel
  obtain ⟨value, -, -⟩ := channel_exact text padded (by simp [found])
  obtain ⟨-, none, -⟩ := channel_exact text long (by simp [found])
  obtain ⟨-, other, -⟩ := channel_exact text scored (by simp [found])
  have large : 256 ≤ digitsValue "4294967296".toList := by decide
  have digits : ∀ c ∈ "0000000255".toList, c.isDigit := List.all_eq_true.mp rfl
  refine ⟨found, ?_, large, ?_, ?_⟩
  · exact (value 255).mpr
      ⟨"0000000255".toList, by decide, by decide, digits, by decide, Nat.le_refl _⟩
  · exact (none "4294967296".toList (by decide)).mpr (.inr (.inr large))
  · exact (other "7_".toList (by decide)).mpr (.inr (.inl ⟨'_', by decide, .inr rfl⟩))

end ShaderChannels.Directive
