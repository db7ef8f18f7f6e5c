import Mathlib.Data.List.Infix
import ShaderChannels.Proofs.Source.Extension

/-!
# Spelling of tokens

Each class of tokens has its own spelling.  `Spelled` lists the classes by their characters, with
what may follow them, and without reference to how a text is scanned.

* `Quoted.exists_literal`, `Literal.read` — text in quotes is cut off and decoded as it is spelled.
* `Lexeme.exists_spelled` — what is cut off as a lexeme and has a token is spelled like one.
* `Spelled.read` — what is spelled like a token is cut off and read as that token.
* `Spelled.prefix_split` — nor is it cut shorter if other characters follow.
* `Lexer.spelled_remaining` — hence the tokens of a text are those that are spelled, each as long as
  it can be.
-/

namespace ShaderChannels

/-! ## Spellings -/

/-- `Literal q cs rest value`: after an opening quote `q`, the characters `cs`, with `rest` after
them, are the rest of a text in quotes, whose value is `value`.  It goes to the first `q` that is not
escaped, or else to the end of the text. -/
inductive Literal (q : Char) : List Char → List Char → List Char → Prop
  | /-- The closing quote. -/
    close {rest : List Char} : Literal q [q] rest []
  | /-- The end of the text, without a closing quote. -/
    unclosed : Literal q [] [] []
  | /-- A backslash at the end of the text, which escapes nothing. -/
    dangling : Literal q ['\\'] [] []
  | /-- A character that neither closes the text nor escapes another one. -/
    plain {c : Char} {cs rest value : List Char} :
      c ≠ q → c ≠ '\\' → Literal q cs rest value → Literal q (c :: cs) rest (c :: value)
  | /-- An escaped character, whose backslash is no part of the value. -/
    escaped {c : Char} {cs rest value : List Char} :
      Literal q cs rest value → Literal q ('\\' :: c :: cs) rest (c :: value)

/-- `IsWord w rest`: the characters `w`, with `rest` after them, are a whole word, which does not
start with a digit. -/
def IsWord (w rest : List Char) : Prop :=
  (∃ c ∈ w.head?, Word.isStart c) ∧ (∀ c ∈ w, Word.isPart c) ∧ ∀ c ∈ rest.head?, ¬ Word.isPart c

/-- Words that set a texture option. -/
def settingWords : List (List Char) :=
  ["MinFilter", "MagFilter", "WrapMode", "Type", "in"].map String.toList

/-- Names of the scalar and vector types. -/
def typeWords : List (List Char) :=
  ["float", "vec2", "vec3", "vec4", "int", "ivec2", "ivec3", "ivec4"].map String.toList

/-- Characters that are punctuation by themselves. -/
def punctuationMarks : List Char := ['.', ',', ':', ';', '(', ')', '[', ']', '{', '}']

/-- Characters that are operators by themselves. -/
def operatorMarks : List Char :=
  ['=', '*', '/', '+', '-', '%', '~', '&', '|', '<', '>', '?', '!', '^']

/-- `Spelled w rest t`: the characters `w`, with `rest` after them, are spelled like the token
`t`. -/
inductive Spelled : List Char → List Char → Token → Prop
  | /-- Digits, with neither a digit nor a point after them. -/
    integer {ds rest : List Char} :
      ds ≠ [] → (∀ c ∈ ds, c.isDigit) → (∀ c ∈ rest.head?, c.isDigit = false ∧ c ≠ '.') →
      Spelled ds rest ⟨.integer, .number (.ofDecimal (digitsValue ds) 0)⟩
  | /-- Digits with a point after them, and then any digits, with no digit after those. -/
    float {ds fs rest : List Char} :
      ds ≠ [] → (∀ c ∈ ds, c.isDigit) → (∀ c ∈ fs, c.isDigit) →
      (∀ c ∈ rest.head?, c.isDigit = false) →
      Spelled (ds ++ '.' :: fs) rest
        ⟨.float, .number (.ofDecimal (digitsValue (ds ++ fs)) (-fs.length))⟩
  | /-- A word that sets a texture option. -/
    keyword {w rest : List Char} :
      IsWord w rest → w ∈ settingWords →
      Spelled w rest ⟨.keyword, .text (String.ofList w)⟩
  | /-- The name of a scalar or vector type. -/
    type {w rest : List Char} :
      IsWord w rest → w ∈ typeWords →
      Spelled w rest ⟨.type, .text (String.ofList w)⟩
  | /-- Any other word. -/
    identifier {w rest : List Char} :
      IsWord w rest → w ∉ settingWords → w ∉ typeWords →
      Spelled w rest ⟨.identifier, .text (String.ofList w)⟩
  | /-- A `#` with the longest run of word characters after it, which names a preview directive. -/
    directive {w rest : List Char} :
      (∀ c ∈ w, Word.isPart c) → (∀ c ∈ rest.head?, ¬ Word.isPart c) →
      w ∈ ["include".toList, "iKeyboard".toList, "iUniform".toList] ∨ "iChannel".toList <+: w →
      Spelled ('#' :: w) rest ⟨.preprocessorKeyword, .text (String.ofList w)⟩
  | /-- Text in quotes of either kind. -/
    string {q : Char} {cs rest value : List Char} :
      q = '\'' ∨ q = '"' → Literal q cs rest value →
      Spelled (q :: cs) rest ⟨.string, .text (String.ofList value)⟩
  | /-- Two colons. -/
    colons {rest : List Char} : Spelled [':', ':'] rest ⟨.punctuation, .text "::"⟩
  | /-- One character of punctuation, which is not the first of two colons. -/
    punctuation {c : Char} {rest : List Char} :
      c ∈ punctuationMarks → (c = ':' → ∀ d ∈ rest.head?, d ≠ ':') →
      Spelled [c] rest ⟨.punctuation, .text (String.ofList [c])⟩
  | /-- One operator, which opens no comment. -/
    operator {c : Char} {rest : List Char} :
      c ∈ operatorMarks → (c = '/' → ∀ d ∈ rest.head?, d ≠ '/' ∧ d ≠ '*') →
      Spelled [c] rest ⟨.operator, .text (String.ofList [c])⟩
  | /-- One character that no other token starts with, and no gap. -/
    unknown {c : Char} {rest : List Char} :
      c ∉ [' ', '\t', '\r', '\n', '\\'] → c ∉ ['\'', '"', '#'] → ¬ c.isDigit →
      ¬ Word.isStart c → c ∉ punctuationMarks → c ∉ operatorMarks →
      Spelled [c] rest ⟨.unknown, .text (String.ofList [c])⟩

/-! ## Text in quotes -/

section Literal

/-- Text in quotes is cut off as it is spelled. -/
theorem Quoted.exists_literal (q : Char) (cs : List Char) :
    ∃ value, Literal q (split q cs).1 (split q cs).2 value := by
  fun_induction split q cs with
  | case1 => exact ⟨[], .unclosed⟩
  | case2 c r ih =>
    obtain ⟨value, h⟩ := ih
    exact ⟨c :: value, .escaped h⟩
  | case3 c r => exact ⟨[], .close⟩
  | case4 c r plain other ih =>
    obtain ⟨value, h⟩ := ih
    by_cases hc : c = '\\'
    · subst hc
      -- a backslash that is no escape is the last character
      cases r with
      | nil => exact ⟨[], .dangling⟩
      | cons d r => exact absurd rfl (plain d r rfl)
    · exact ⟨c :: value, .plain other hc h⟩

variable {q : Char}

theorem Quoted.decode_cons {c : Char} (hc : c ≠ '\\') (r : List Char) :
    decode q (c :: r) = if c = q then [] else c :: decode q r := by
  rw [decode]
  · exact fun escape _ ↦ hc escape
  · exact fun _ _ escape _ ↦ hc escape

/-- What is spelled like text in quotes is cut off, whatever follows, and has that value. -/
theorem Literal.read (hq : q ≠ '\\') {cs rest value : List Char} (h : Literal q cs rest value) :
    Quoted.split q (cs ++ rest) = (cs, rest) ∧ Quoted.decode q cs = value := by
  induction h with
  | close =>
    rw [List.singleton_append, Quoted.split_cons hq, Quoted.decode_cons hq, if_pos rfl, if_pos rfl]
    exact ⟨rfl, rfl⟩
  | unclosed => exact ⟨rfl, rfl⟩
  | dangling => simp [Quoted.split, Quoted.decode, hq.symm]
  | plain other hc _ ih =>
    rw [List.cons_append, Quoted.split_cons hc, Quoted.decode_cons hc, if_neg other, if_neg other,
      ih.1, ih.2]
    exact ⟨rfl, rfl⟩
  | escaped _ ih =>
    rw [List.cons_append, List.cons_append, Quoted.split, Quoted.decode, ih.1, ih.2]
    exact ⟨rfl, rfl⟩

end Literal

/-! ## Numerals -/

namespace Numeral

variable {whole : List Char}

theorem value_whole (hw : ∀ c ∈ whole, c.isDigit) :
    isWhole whole ∧ value whole = .ofDecimal (digitsValue whole) 0 := by
  have run : whole.takeWhile Char.isDigit = whole := List.takeWhile_eq_self_iff.mpr hw
  have rest : whole.dropWhile Char.isDigit = [] := List.dropWhile_eq_nil_iff.mpr hw
  constructor
  · have point : '.' ∉ whole := fun h ↦ absurd (hw '.' h) (by decide)
    simpa [isWhole] using point
  · simp [value, run, rest]

theorem value_fraction (hw : ∀ c ∈ whole, c.isDigit) (fraction : List Char) :
    isWhole (whole ++ '.' :: fraction) = false ∧
      value (whole ++ '.' :: fraction) =
        .ofDecimal (digitsValue (whole ++ fraction)) (-fraction.length) := by
  have point : ∀ c ∈ ('.' :: fraction).head?, c.isDigit = false := by
    rintro c ⟨⟩
    rfl
  obtain ⟨run, rest⟩ := span_append hw point
  constructor
  · simp [isWhole]
  · simp [value, run, rest]

end Numeral

/-! ## Lexemes -/

namespace Lexeme

variable {c : Char} {w rest : List Char}

/-- A character of another class than both quotes is no quote. -/
theorem isQuote_of_class {p : Char → Bool} (single : p '\'' = false) (double : p '"' = false)
    (h : p c) : Quoted.isQuote c = false := by
  rw [Bool.eq_false_iff]
  intro quote
  rw [Quoted.isQuote, Bool.or_eq_true, beq_iff_eq, beq_iff_eq] at quote
  rcases quote with rfl | rfl
  · exact absurd h (Bool.eq_false_iff.mp single)
  · exact absurd h (Bool.eq_false_iff.mp double)

theorem isQuote_of_isDigit (h : c.isDigit) : Quoted.isQuote c = false :=
  isQuote_of_class (by decide) (by decide) h

theorem isQuote_of_isStart (h : Word.isStart c) : Quoted.isQuote c = false :=
  isQuote_of_class (by decide) (by decide) h

theorem isDigit_of_isStart (h : Word.isStart c) : c.isDigit = false := by
  rw [Word.isStart, Bool.or_eq_true, beq_iff_eq] at h
  rcases h with letter | rfl
  · -- letters of both kinds come after the digits
    have after : 'A'.toNat ≤ c.toNat := by
      rcases Bool.or_eq_true_iff.mp letter with upper | lower
      · exact (of_decide_eq_true upper).1
      · have small : 'a'.toNat ≤ c.toNat := of_decide_eq_true (Bool.and_eq_true_iff.mp lower).1
        exact Nat.le_trans (by decide) small
    rw [Bool.eq_false_iff, Ne, Char.isDigit_iff_toNat, not_and, Nat.not_le]
    exact fun _ ↦ Nat.lt_of_lt_of_le (by decide) after
  · decide

/-- A word is cut off where it ends, and its class is told by the lists of words. -/
theorem read_word (h : IsWord w rest) :
    split (w ++ rest) = (w, rest) ∧
      Token.ofLexeme? w =
        some ⟨Token.wordKind (String.ofList w), .text (String.ofList w)⟩ := by
  obtain ⟨⟨c, first, start⟩, parts, ends⟩ := h
  obtain ⟨w, rfl⟩ := List.head?_eq_some_iff.mp first
  have quote := isQuote_of_isStart start
  have digit := isDigit_of_isStart start
  obtain ⟨run, rest'⟩ := span_append (List.forall_mem_cons.mp parts).2
    fun d hd ↦ Bool.eq_false_iff.mpr (ends d hd)
  constructor
  · simp only [List.cons_append, split, quote, digit, start, Word.split, run, rest',
      Bool.true_or, Bool.false_eq_true, if_true, if_false]
    rfl
  · simp only [Token.ofLexeme?, quote, digit, start, Bool.false_eq_true, if_true, if_false]

/-- A word is in a list of words if its characters are those of one of them. -/
theorem contains_ofList_iff {words : List String} :
    words.contains (String.ofList w) ↔ w ∈ words.map String.toList := by
  rw [List.contains_iff_mem, List.mem_map]
  constructor
  · intro h
    exact ⟨_, h, String.toList_ofList⟩
  · rintro ⟨s, hs, rfl⟩
    rwa [String.ofList_toList]

theorem contains_settings_iff :
    Word.settings.contains (String.ofList w) ↔ w ∈ settingWords :=
  contains_ofList_iff

theorem contains_types_iff :
    Word.types.contains (String.ofList w) ↔ w ∈ typeWords :=
  contains_ofList_iff

/-- No type has the name of a setting. -/
theorem not_settings_of_types :
    ∀ w ∈ typeWords, ¬ Word.settings.contains (String.ofList w) := by
  decide

theorem ofLexeme?_hash (w : List Char) :
    Token.ofLexeme? ('#' :: w) =
      if Word.isDirective w then some ⟨.preprocessorKeyword, .text (String.ofList w)⟩ else none :=
  rfl

theorem read_directive (parts : ∀ c ∈ w, Word.isPart c) (ends : ∀ c ∈ rest.head?, ¬ Word.isPart c)
    (names : Word.isDirective w) :
    split ('#' :: w ++ rest) = ('#' :: w, rest) ∧
      Token.ofLexeme? ('#' :: w) = some ⟨.preprocessorKeyword, .text (String.ofList w)⟩ := by
  obtain ⟨run, rest'⟩ := span_append parts fun d hd ↦ Bool.eq_false_iff.mpr (ends d hd)
  constructor
  · rw [List.cons_append, split_hash, run, rest']
  · rw [ofLexeme?_hash, if_pos names]

/-- What starts with digits is cut off as a numeral, and is whole or not. -/
theorem read_numeral {ds : List Char} (ne : ds ≠ []) (digits : ∀ c ∈ ds, c.isDigit)
    (front : ds <+: w) (rest : List Char) :
    split (w ++ rest) = Numeral.split (w ++ rest) ∧
      Token.ofLexeme? w = some ⟨if Numeral.isWhole w then .integer else .float,
        .number (Numeral.value w)⟩ := by
  obtain ⟨c, r, rfl⟩ := List.exists_cons_of_ne_nil ne
  obtain ⟨tail, rfl⟩ := front
  have digit : c.isDigit := digits c List.mem_cons_self
  have quote := isQuote_of_isDigit digit
  constructor
  · simp only [List.cons_append, split, quote, digit, Bool.false_eq_true, if_true, if_false]
  · simp only [List.cons_append, Token.ofLexeme?, quote, digit, Bool.false_eq_true, if_true,
      if_false]

/-- A quote escapes nothing. -/
theorem class_of_quote {q : Char} (h : q = '\'' ∨ q = '"') : Quoted.isQuote q ∧ q ≠ '\\' := by
  rcases h with rfl | rfl
  · decide
  · decide

/-- No other lexeme starts with a mark. -/
theorem class_of_mark (h : c ∈ punctuationMarks ∨ c ∈ operatorMarks) :
    ¬ Quoted.isQuote c ∧ ¬ c.isDigit ∧ ¬ (Word.isStart c || c == '#') := by
  have all : ∀ c ∈ punctuationMarks ++ operatorMarks,
      ¬ Quoted.isQuote c ∧ ¬ c.isDigit ∧ ¬ (Word.isStart c || c == '#') := by
    refine List.forall_iff_forall_mem.mp ?_
    decide
  exact all c (List.mem_append.mpr h)

theorem ofLexeme?_of_punctuation :
    ∀ c ∈ punctuationMarks,
      Token.ofLexeme? [c] = some ⟨.punctuation, .text (String.ofList [c])⟩ := by
  refine List.forall_iff_forall_mem.mp ?_
  decide

theorem ofLexeme?_of_operator :
    ∀ c ∈ operatorMarks, Token.ofLexeme? [c] = some ⟨.operator, .text (String.ofList [c])⟩ := by
  refine List.forall_iff_forall_mem.mp ?_
  decide

theorem isPunctuation_iff : isPunctuation c ↔ c ∈ punctuationMarks := by
  rw [isPunctuation, List.contains_iff_mem]
  rfl

theorem isOperator_iff : isOperator c ↔ c ∈ operatorMarks := by
  rw [isOperator, List.contains_iff_mem]
  rfl

end Lexeme

/-- What is spelled like a token is cut off as a lexeme, whatever follows, and read as that token. -/
theorem Spelled.read {w rest : List Char} {t : Token} (h : Spelled w rest t) :
    Lexeme.split (w ++ rest) = (w, rest) ∧ Token.ofLexeme? w = some t := by
  cases h with
  | integer ne digits ends =>
    obtain ⟨cut, token⟩ := Lexeme.read_numeral ne digits List.prefix_rfl rest
    obtain ⟨isWhole, value⟩ := Numeral.value_whole digits
    rw [cut, token, isWhole, value]
    exact ⟨Numeral.split_whole digits ends, rfl⟩
  | @float ds fs _ ne digits fraction ends =>
    obtain ⟨cut, token⟩ := Lexeme.read_numeral ne digits (List.prefix_append ds ('.' :: fs)) rest
    obtain ⟨isWhole, value⟩ := Numeral.value_fraction digits fs
    rw [cut, token, isWhole, value, List.append_assoc]
    exact ⟨Numeral.split_fraction digits fraction ends, rfl⟩
  | keyword word listed =>
    obtain ⟨cut, token⟩ := Lexeme.read_word word
    rw [token, Token.wordKind, if_pos (Lexeme.contains_settings_iff.mpr listed)]
    exact ⟨cut, rfl⟩
  | type word listed =>
    obtain ⟨cut, token⟩ := Lexeme.read_word word
    rw [token, Token.wordKind, if_neg (Lexeme.not_settings_of_types _ listed),
      if_pos (Lexeme.contains_types_iff.mpr listed)]
    exact ⟨cut, rfl⟩
  | identifier word setting type =>
    obtain ⟨cut, token⟩ := Lexeme.read_word word
    rw [token, Token.wordKind, if_neg, if_neg]
    · exact ⟨cut, rfl⟩
    · rwa [Lexeme.contains_types_iff]
    · rwa [Lexeme.contains_settings_iff]
  | directive parts ends names =>
    exact Lexeme.read_directive parts ends (Lexeme.isDirective_iff.mpr names)
  | @string q cs _ value quote literal =>
    obtain ⟨isQuote, escape⟩ := Lexeme.class_of_quote quote
    obtain ⟨cut, decoded⟩ := literal.read escape
    simp only [List.cons_append, Lexeme.split, Token.ofLexeme?, isQuote, if_true, cut, decoded]
    exact ⟨rfl, trivial⟩
  | colons => exact ⟨rfl, rfl⟩
  | punctuation mark alone =>
    obtain ⟨quote, digit, word⟩ := Lexeme.class_of_mark (.inl mark)
    exact ⟨Lexeme.split_single quote digit word alone, Lexeme.ofLexeme?_of_punctuation _ mark⟩
  | operator mark _ =>
    obtain ⟨quote, digit, word⟩ := Lexeme.class_of_mark (.inr mark)
    refine ⟨Lexeme.split_single quote digit word ?_, Lexeme.ofLexeme?_of_operator _ mark⟩
    rintro rfl
    exact absurd mark (by decide)
  | @unknown c _ _ other digit start punctuation operator =>
    obtain ⟨single, double, hash⟩ : c ≠ '\'' ∧ c ≠ '"' ∧ c ≠ '#' := by simpa using other
    have quote : ¬ Quoted.isQuote c := by simp [Quoted.isQuote, single, double]
    have word : ¬ (Word.isStart c || c == '#') := by simp [start, hash]
    constructor
    · apply Lexeme.split_single quote digit word
      rintro rfl
      exact absurd (by decide) punctuation
    · have hash : ¬ (c == '#') := by simpa using hash
      rw [← Lexeme.isPunctuation_iff] at punctuation
      rw [← Lexeme.isOperator_iff] at operator
      simp only [Token.ofLexeme?, quote, digit, start, hash, punctuation, operator,
        Bool.false_eq_true, if_false]

/-! ## Scanned lexemes -/

namespace Lexeme

/-- A digit starts a numeral, which ends where it has to. -/
theorem exists_spelled_digit {c : Char} (digit : c.isDigit) (r : List Char) :
    ∃ t, Spelled (Numeral.split (c :: r)).1 (Numeral.split (c :: r)).2 t := by
  have ne : (c :: r).takeWhile Char.isDigit ≠ [] := by simp [digit]
  have digits : ∀ d ∈ (c :: r).takeWhile Char.isDigit, d.isDigit := fun d hd ↦
    List.mem_takeWhile_imp hd
  rcases Numeral.split_form (c :: r) with ⟨form, ends⟩ | ⟨fraction, hf, form, ends⟩
  · rw [form]
    exact ⟨_, .integer ne digits ends⟩
  · rw [form]
    exact ⟨_, .float ne digits hf ends⟩

/-- A whole word is spelled like a token of one of three classes. -/
theorem exists_spelled_word {w rest : List Char} (h : IsWord w rest) : ∃ t, Spelled w rest t := by
  by_cases setting : w ∈ settingWords
  · exact ⟨_, .keyword h setting⟩
  · by_cases type : w ∈ typeWords
    · exact ⟨_, .type h type⟩
    · exact ⟨_, .identifier h setting type⟩

theorem isWord_takeWhile {c : Char} (start : Word.isStart c) (r : List Char) :
    IsWord (c :: r.takeWhile Word.isPart) (r.dropWhile Word.isPart) := by
  refine ⟨⟨c, rfl, start⟩, ?_, ?_⟩
  · rw [List.forall_mem_cons]
    constructor
    · rw [Word.isStart, Bool.or_eq_true] at start
      rw [Word.isPart, Bool.or_eq_true, Char.isAlphanum, Bool.or_eq_true]
      exact start.imp_left .inl
    · exact fun d hd ↦ List.mem_takeWhile_imp hd
  · intro d hd
    exact Bool.eq_false_iff.mp (eq_false_of_head?_dropWhile hd)

/-- The longest word after a `#`, if there is a token for it, names a preview directive. -/
theorem exists_spelled_hash {r : List Char}
    (some : (Token.ofLexeme? ('#' :: r.takeWhile Word.isPart)).isSome) :
    ∃ t, Spelled ('#' :: r.takeWhile Word.isPart) (r.dropWhile Word.isPart) t := by
  refine ⟨_, .directive ?_ ?_ ?_⟩
  · exact fun d hd ↦ List.mem_takeWhile_imp hd
  · exact fun d hd ↦ Bool.eq_false_iff.mp (eq_false_of_head?_dropWhile hd)
  · rw [← isDirective_iff]
    by_contra names
    rw [ofLexeme?_hash, if_neg names] at some
    exact Bool.false_ne_true some

/-- What is cut off as a lexeme where no trivia starts, and has a token, is spelled like one. -/
theorem exists_spelled {cs : List Char} (visible : Trivia.split cs = ([], cs))
    (some : (Token.ofLexeme? (split cs).1).isSome) :
    ∃ t, Spelled (split cs).1 (split cs).2 t := by
  fun_cases split cs with
  | case1 => exact absurd some (by decide)
  | case2 c r quote =>
    obtain ⟨value, literal⟩ := Quoted.exists_literal c r
    refine ⟨_, .string ?_ literal⟩
    simpa [Quoted.isQuote] using quote
  | case3 c r _ digit => exact exists_spelled_digit digit r
  | case4 c r _ _ word =>
    by_cases start : Word.isStart c
    · exact exists_spelled_word (isWord_takeWhile start r)
    · obtain rfl : c = '#' := by simpa [start] using word
      exact exists_spelled_hash some
  | case5 c r _ _ _ colons =>
    obtain ⟨rfl, hr⟩ : c = ':' ∧ r.head? = Option.some ':' := by simpa using colons
    exact ⟨_, .colons⟩
  | case6 c r quote digit word colons =>
    obtain ⟨blank, comment⟩ := Trivia.split_cons_eq_iff.mp visible
    obtain ⟨start, hash⟩ : ¬ Word.isStart c ∧ c ≠ '#' := by simpa using word
    by_cases punctuation : c ∈ punctuationMarks
    · refine ⟨_, .punctuation punctuation ?_⟩
      rintro rfl d hd rfl
      exact colons (by simpa using hd)
    · by_cases operator : c ∈ operatorMarks
      · exact ⟨_, .operator operator comment⟩
      · refine ⟨_, .unknown ?_ ?_ digit start punctuation operator⟩
        · simpa [Trivia.isBlank, and_assoc] using blank
        · simpa [Quoted.isQuote, hash] using quote

end Lexeme

/-! ## Longest lexemes

More characters after a lexeme may be taken in with it, but none of its own is left out then. -/

/-- Characters of one class are taken in whatever follows. -/
theorem prefix_takeWhile {p : Char → Bool} {run : List Char} (inside : ∀ c ∈ run, p c)
    (more : List Char) : run <+: (run ++ more).takeWhile p := by
  rw [List.takeWhile_append_of_pos inside]
  exact List.prefix_append _ _

theorem Numeral.prefix_whole {whole : List Char} (hw : ∀ c ∈ whole, c.isDigit)
    (more : List Char) : whole <+: (split (whole ++ more)).1 := by
  apply (prefix_takeWhile hw more).trans
  rcases split_form (whole ++ more) with ⟨form, -⟩ | ⟨fraction, -, form, -⟩
  · rw [form]
  · rw [form]
    exact List.prefix_append _ _

theorem Numeral.prefix_fraction {whole fraction : List Char} (hw : ∀ c ∈ whole, c.isDigit)
    (hf : ∀ c ∈ fraction, c.isDigit) (more : List Char) :
    whole ++ '.' :: fraction <+: (split (whole ++ '.' :: fraction ++ more)).1 := by
  have point : ∀ c ∈ ('.' :: (fraction ++ more)).head?, c.isDigit = false := by
    rintro c ⟨⟩
    rfl
  obtain ⟨run, rest⟩ := span_append hw point
  rw [List.append_assoc, List.cons_append, split, run, rest]
  apply (List.prefix_append_right_inj _).mpr
  apply (List.prefix_cons_inj _).mpr
  exact prefix_takeWhile hf more

theorem Literal.prefix_split {q : Char} (hq : q ≠ '\\') {cs rest value : List Char}
    (h : Literal q cs rest value) (more : List Char) : cs <+: (Quoted.split q (cs ++ more)).1 := by
  induction h with
  | close =>
    rw [List.singleton_append, Quoted.split_cons hq, if_pos rfl]
  | unclosed => exact List.nil_prefix
  | dangling =>
    -- now the backslash may escape something, and if so it is taken in with that
    cases more with
    | nil => simp [Quoted.split, hq.symm]
    | cons d r => simp [Quoted.split]
  | plain other hc _ ih =>
    rw [List.cons_append, Quoted.split_cons hc, if_neg other]
    exact (List.prefix_cons_inj _).mpr ih
  | escaped _ ih =>
    rw [List.cons_append, List.cons_append, Quoted.split]
    apply (List.prefix_cons_inj _).mpr
    exact (List.prefix_cons_inj _).mpr ih

namespace Lexeme

variable {w rest : List Char}

theorem prefix_singleton (c : Char) (more : List Char) : [c] <+: (split (c :: more)).1 := by
  obtain ⟨d, w, hw⟩ := List.exists_cons_of_ne_nil (split_ne_nil (List.cons_ne_nil c more))
  have whole := split_append (c :: more)
  rw [hw, List.cons_append] at whole
  rw [hw, (List.cons.inj whole).1]
  exact List.prefix_append [c] w

theorem prefix_word (h : IsWord w rest) (more : List Char) : w <+: (split (w ++ more)).1 := by
  obtain ⟨⟨c, first, start⟩, parts, -⟩ := h
  obtain ⟨w, rfl⟩ := List.head?_eq_some_iff.mp first
  simp only [List.cons_append, split, isQuote_of_isStart start, isDigit_of_isStart start, start,
    Bool.true_or, Bool.false_eq_true, if_true, if_false]
  apply (List.prefix_cons_inj c).mpr
  exact prefix_takeWhile (List.forall_mem_cons.mp parts).2 more

end Lexeme

/-- What is spelled like a token is not cut shorter, whatever follows. -/
theorem Spelled.prefix_split {w rest : List Char} {t : Token} (h : Spelled w rest t)
    (more : List Char) : w <+: (Lexeme.split (w ++ more)).1 := by
  cases h with
  | integer ne digits _ =>
    rw [(Lexeme.read_numeral ne digits List.prefix_rfl more).1]
    exact Numeral.prefix_whole digits more
  | @float ds fs _ ne digits fraction _ =>
    rw [(Lexeme.read_numeral ne digits (List.prefix_append ds ('.' :: fs)) more).1]
    exact Numeral.prefix_fraction digits fraction more
  | keyword word _ => exact Lexeme.prefix_word word more
  | type word _ => exact Lexeme.prefix_word word more
  | identifier word _ _ => exact Lexeme.prefix_word word more
  | directive parts _ _ =>
    rw [List.cons_append, Lexeme.split_hash]
    apply (List.prefix_cons_inj _).mpr
    exact prefix_takeWhile parts more
  | @string q cs _ value quote literal =>
    obtain ⟨isQuote, escape⟩ := Lexeme.class_of_quote quote
    simp only [List.cons_append, Lexeme.split, isQuote, if_true]
    apply (List.prefix_cons_inj q).mpr
    exact literal.prefix_split escape more
  | colons => exact List.prefix_rfl
  | punctuation _ _ => exact Lexeme.prefix_singleton _ more
  | operator _ _ => exact Lexeme.prefix_singleton _ more
  | unknown _ _ _ _ _ _ => exact Lexeme.prefix_singleton _ more

/-! ## Tokens of a text -/

namespace Lexer

variable {text : List Char}

/-- What is true of every token that can be looked ahead to in a text is true of all that a lexer in
the text hands out. -/
theorem forall_remaining {P : Delivery → Prop}
    (found : ∀ c : Cursor, c.Exact text → ∀ t, (lookAt c).1.token? = some t →
      P ⟨t, (lookAt c).1.span, (lookAt c).1.line⟩)
    {l : Lexer} (none : l.ahead = none) (h : l.cursor.Exact text) : ∀ d ∈ l.remaining, P d := by
  have steps : ∀ r ∈ l.deliveries, ∀ d ∈ delivery? r, P d := by
    refine forall_deliveries (I := fun l ↦ l.cursor.Exact text) (fun l none h ↦ ?_) none h
    rw [next_of_ahead none]
    refine ⟨?_, (exact_lookAt h).2⟩
    intro d hd
    obtain ⟨t, ht, rfl⟩ := Option.map_eq_some_iff.mp hd
    exact found l.cursor h t ht
  intro d hd
  obtain ⟨r, hr, delivered⟩ := List.mem_filterMap.mp hd
  exact steps r hr d delivered

/-- The token at a place of a text is spelled by the characters there, and by no others. -/
theorem spelled_lookAt {c : Cursor} (h : c.Exact text) {t : Token}
    (ht : (lookAt c).1.token? = some t) :
    let s := (lookAt c).1.span
    Spelled (s.slice text) (text.drop s.stop) t ∧
      Lexeme.split (text.drop s.start) = (s.slice text, text.drop s.stop) := by
  have start : text.drop (lookAt c).1.span.start =
      (Scan.ofText c.rest).lexeme ++ (Scan.ofText c.rest).rest := h.drop_trivia
  have stop : text.drop (lookAt c).1.span.stop = (Scan.ofText c.rest).rest := h.drop_lexeme
  have slice : (lookAt c).1.span.slice text = (Scan.ofText c.rest).lexeme :=
    Span.slice_of_drop start
  have code : text.drop (lookAt c).1.span.start = (Trivia.split c.rest).2 :=
    start.trans (Lexeme.split_append _)
  have visible := Trivia.split_snd .code c.rest
  have some : (Token.ofLexeme? (Scan.ofText c.rest).lexeme) = some t := ht
  obtain ⟨u, spelled⟩ := Lexeme.exists_spelled visible (Option.isSome_of_eq_some some)
  obtain rfl : u = t := Option.some.inj (spelled.read.2.symm.trans some)
  dsimp only
  rw [slice, stop, code]
  exact ⟨spelled, rfl⟩

/-- The tokens of a text are spelled where they stand. -/
theorem spelled_of_mem_remaining :
    ∀ d ∈ (ofText text).remaining,
      Spelled (d.span.slice text) (text.drop d.span.stop) d.token := by
  refine forall_remaining ?_ rfl (Cursor.exact_ofText text)
  intro c h t ht
  exact (spelled_lookAt h ht).1

/-- **Spelling.**  The token at each place of a text is the one that is spelled by the characters
there, with what follows them, and no longer stretch from the same place on is spelled like any
token, whatever were to follow it. -/
theorem spelled_remaining (text : List Char) :
    ∀ d ∈ (ofText text).remaining,
      (∀ t, Spelled (d.span.slice text) (text.drop d.span.stop) t ↔ t = d.token) ∧
      ∀ w rest t, w <+: text.drop d.span.start → Spelled w rest t →
        w.length ≤ (d.span.slice text).length := by
  refine forall_remaining ?_ rfl (Cursor.exact_ofText text)
  intro c h t ht
  obtain ⟨spelled, cut⟩ := spelled_lookAt h ht
  constructor
  · intro u
    constructor
    · intro other
      exact Option.some.inj (other.read.2.symm.trans spelled.read.2)
    · rintro rfl
      exact spelled
  · rintro w rest u ⟨more, hw⟩ other
    have taken := other.prefix_split more
    rw [hw, cut] at taken
    exact taken.length_le

/-- A second point ends a number; the number might have ended earlier, but goes as far as it can. -/
theorem spelled_remaining_point :
    let text := "1.5.2".toList
    let d : Delivery := ⟨⟨.float, .number (.ofDecimal 15 (-1))⟩, ⟨0, 3⟩, 0⟩
    let short : Token := ⟨.float, .number (.ofDecimal 1 0)⟩
    d ∈ (ofText text).remaining ∧ Spelled "1.5".toList ".2".toList d.token ∧
      "1.".toList <+: text.drop d.span.start ∧ Spelled "1.".toList ['x'] short ∧
      "1.".toList.length ≤ (d.span.slice text).length := by
  intro text d short
  have found : d ∈ (ofText text).remaining := by decide +kernel
  have early : Spelled (['1'] ++ '.' :: []) ['x'] short :=
    .float (List.cons_ne_nil _ _) (by simp) (by simp) (by simp)
  have front : "1.".toList <+: text.drop d.span.start := by decide
  obtain ⟨spelled, longest⟩ := spelled_remaining text d found
  exact ⟨found, (spelled _).mpr rfl, front, early, longest _ _ _ front early⟩

end Lexer

end ShaderChannels
