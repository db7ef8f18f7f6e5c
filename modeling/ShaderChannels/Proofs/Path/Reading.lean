import Mathlib.Tactic.SplitIfs
import ShaderChannels.Path.Anchor
import ShaderChannels.Proofs.Text.Span

/-!
# Reading templates

`Template.Grammar cs ps` says by rules which parts `ps` a text `cs` has.  It leaves no choice, and
`parts` reads a text as it says.

A template is read from left to right, and what a text at its front is read as depends on what comes
after it only where a reference at the end of the text may still go on.  `Template.Reads cs ps rest`
says so by rules: `ps` are the parts of `cs` whatever follows, and `rest` is the open reference at
its end, if there is one.

* `Template.grammar_iff` — every text has one reading by the grammar.
* `Template.exists_reads` — every text is read as some parts and an open rest.
* `Template.Reads.parts_append` — what follows a text is read together with its rest only.
* `Template.Whole` — texts that leave nothing open.
-/

namespace ShaderChannels.Template

variable {cs r rest name : List Char} {ps : List Part} {c : Char}

/-! ## Braces -/

theorem splitBrace?_append (h : '}' ∉ name) (r : List Char) :
    splitBrace? (name ++ '}' :: r) = some (name, r) := by
  induction name with
  | nil => rfl
  | cons c name ih =>
    obtain ⟨ne, h⟩ := not_or.mp (List.mem_cons.not.mp h)
    rw [List.cons_append, splitBrace?, if_neg (Ne.symm ne), ih h]
    rfl

theorem splitBrace?_eq_none_iff : splitBrace? cs = none ↔ '}' ∉ cs := by
  induction cs with
  | nil => simp [splitBrace?]
  | cons c cs ih =>
    rw [splitBrace?, List.mem_cons, not_or, ← ih]
    split_ifs with h
    · simp [h]
    · simp [Ne.symm h]

theorem splitBrace?_eq_some_iff :
    splitBrace? cs = some (name, r) ↔ '}' ∉ name ∧ cs = name ++ '}' :: r := by
  constructor
  · intro h
    induction cs generalizing name with
    | nil => exact nomatch h
    | cons c cs ih =>
      rw [splitBrace?] at h
      split_ifs at h with close
      · cases h
        exact ⟨List.not_mem_nil, by rw [close]; rfl⟩
      · obtain ⟨⟨name', r'⟩, found, eq⟩ := Option.map_eq_some_iff.mp h
        cases eq
        obtain ⟨free, rfl⟩ := ih found
        refine ⟨?_, rfl⟩
        rw [List.mem_cons, not_or]
        exact ⟨Ne.symm close, free⟩
  · rintro ⟨free, rfl⟩
    exact splitBrace?_append free r

/-! ## Parts, one after the other -/

theorem parts_char (h : c ≠ '$') (r : List Char) : parts (c :: r) = .char c :: parts r := by
  rw [parts]
  · rintro _ rfl
    exact absurd rfl h
  · exact h

theorem parts_braced (ne : name ≠ []) (free : '}' ∉ name) (r : List Char) :
    parts ('$' :: '{' :: (name ++ '}' :: r)) = .reference name :: parts r := by
  have read := splitBrace?_append free r
  rw [parts]
  split
  · next none => cases read.symm.trans none
  · next empty => exact absurd (Prod.mk.inj (Option.some.inj (read.symm.trans empty))).1 ne
  · next found =>
    obtain ⟨rfl, rfl⟩ := Prod.mk.inj (Option.some.inj (read.symm.trans found))
    rfl

theorem parts_unclosed (free : '}' ∉ r) : parts ('$' :: '{' :: r) = [.unclosed] := by
  have read := splitBrace?_eq_none_iff.mpr free
  rw [parts]
  split
  · rfl
  · next empty => cases read.symm.trans empty
  · next found => cases read.symm.trans found

/-- What is in no name is not among characters that are. -/
theorem not_mem_of_isName (all : ∀ c ∈ name, isName c) (hc : isName c = false) : c ∉ name := by
  intro mem
  rw [all c mem] at hc
  exact nomatch hc

theorem parts_bare (ne : name ≠ []) (all : ∀ c ∈ name, isName c)
    (stop : ∀ c ∈ r.head?, isName c = false) :
    parts ('$' :: (name ++ r)) = .reference name :: parts r := by
  obtain ⟨taken, left⟩ := span_append all stop
  rw [parts]
  · split
    · next none => exact absurd (taken.symm.trans none) ne
    · rw [taken, left]
  · intro s brace
    obtain ⟨c, name, rfl⟩ := List.exists_cons_of_ne_nil ne
    obtain ⟨rfl, -⟩ := List.cons.inj brace
    exact not_mem_of_isName all rfl List.mem_cons_self

/-- A dollar sign in front of empty braces stands for itself, as does one in front of anything else
that starts no name. -/
theorem parts_dollar (stop : ∀ c ∈ r.head?, isName c = false)
    (brace : ∀ s, r = '{' :: s → s.head? = some '}') :
    parts ('$' :: r) = .char '$' :: parts r := by
  by_cases braced : ∃ s, r = '{' :: s
  · obtain ⟨s, rfl⟩ := braced
    obtain ⟨s, rfl⟩ := List.head?_eq_some_iff.mp (brace s rfl)
    have read : splitBrace? ('}' :: s) = some ([], s) := rfl
    rw [parts]
    split
    · next none => cases read.symm.trans none
    · rfl
    · next ne found =>
      obtain ⟨rfl, rfl⟩ := Prod.mk.inj (Option.some.inj (read.symm.trans found))
      exact absurd rfl ne
  · have none : r.takeWhile isName = [] := (span_append (List.forall_mem_nil _) stop).1
    rw [parts]
    · split
      · rfl
      · next ne => exact absurd none ne
    · exact fun s hs ↦ braced ⟨s, hs⟩

/-! ## The grammar of templates -/

/-- `Grammar cs ps`: the text `cs` is a template with the parts `ps`. -/
inductive Grammar : List Char → List Part → Prop
  | nil : Grammar [] []
  | /-- A character other than a dollar sign stands for itself. -/
    char {c : Char} {r : List Char} {ps : List Part} :
      c ≠ '$' → Grammar r ps → Grammar (c :: r) (.char c :: ps)
  | /-- A name in braces goes up to the first closing brace. -/
    braced {name r : List Char} {ps : List Part} :
      name ≠ [] → '}' ∉ name → Grammar r ps →
      Grammar ('$' :: '{' :: (name ++ '}' :: r)) (.reference name :: ps)
  | /-- A name without braces goes on as long as it can. -/
    bare {name r : List Char} {ps : List Part} :
      name ≠ [] → (∀ c ∈ name, isName c) → (∀ c ∈ r.head?, isName c = false) → Grammar r ps →
      Grammar ('$' :: (name ++ r)) (.reference name :: ps)
  | /-- A dollar sign that no name follows stands for itself, also in front of empty braces. -/
    dollar {r : List Char} {ps : List Part} :
      (∀ c ∈ r.head?, isName c = false) → (∀ s, r = '{' :: s → s.head? = some '}') → Grammar r ps →
      Grammar ('$' :: r) (.char '$' :: ps)
  | /-- A brace that is never closed ends the reading. -/
    unclosed {r : List Char} : '}' ∉ r → Grammar ('$' :: '{' :: r) [.unclosed]

/-- A text is read as the grammar says. -/
theorem grammar_parts (cs : List Char) : Grammar cs (parts cs) := by
  fun_induction parts cs with
  | case1 => exact .nil
  | case2 r none => exact .unclosed (splitBrace?_eq_none_iff.mp none)
  | case3 r r' read ih =>
    obtain ⟨-, rfl⟩ := splitBrace?_eq_some_iff.mp read
    refine .dollar ?_ ?_ ih
    · rintro _ ⟨⟩
      rfl
    · rintro _ ⟨⟩
      rfl
  | case4 r name r' ne read ih =>
    obtain ⟨free, rfl⟩ := splitBrace?_eq_some_iff.mp read
    exact .braced ne free ih
  | case5 r other none ih =>
    refine .dollar (fun c hc ↦ ?_) (fun s hs ↦ (other s hs).elim) ih
    obtain ⟨r, rfl⟩ := List.head?_eq_some_iff.mp hc
    by_contra part
    rw [List.takeWhile_cons_of_pos (Bool.not_eq_false _ ▸ part)] at none
    exact nomatch none
  | case6 r other ne ih =>
    have whole := r.takeWhile_append_dropWhile (p := isName)
    have all : ∀ c ∈ r.takeWhile isName, isName c := fun c hc ↦ List.mem_takeWhile_imp hc
    have bare := Grammar.bare ne all (fun c hc ↦ eq_false_of_head?_dropWhile hc) ih
    rwa [whole] at bare
  | case7 c r braced bare ih => exact .char bare ih

/-- The grammar leaves no choice: a text has one reading, and that is how it is read. -/
theorem grammar_iff : Grammar cs ps ↔ ps = parts cs := by
  constructor
  · intro h
    induction h with
    | nil => rw [parts]
    | char ne _ ih => rw [parts_char ne, ih]
    | braced ne free _ ih => rw [parts_braced ne free, ih]
    | bare ne all stop _ ih => rw [parts_bare ne all stop, ih]
    | dollar stop brace _ ih => rw [parts_dollar stop brace, ih]
    | unclosed free => rw [parts_unclosed free]
  · rintro rfl
    exact grammar_parts cs

/-! ## What is read whatever follows -/

/-- `Reads cs ps rest`: whatever follows the text `cs`, its parts start with `ps`, and `rest` is the
reference at its end that may still go on. -/
inductive Reads : List Char → List Part → List Char → Prop
  | nil : Reads [] [] []
  | /-- A name without braces may go on, also one that has not begun. -/
    name {name : List Char} : (∀ c ∈ name, isName c) → Reads ('$' :: name) [] ('$' :: name)
  | /-- A brace may still be closed. -/
    brace {name : List Char} : '}' ∉ name → Reads ('$' :: '{' :: name) [] ('$' :: '{' :: name)
  | /-- A character other than a dollar sign stands for itself. -/
    char {c : Char} {r : List Char} {ps : List Part} {rest : List Char} :
      c ≠ '$' → Reads r ps rest → Reads (c :: r) (.char c :: ps) rest
  | /-- A name in braces goes up to the first closing brace. -/
    braced {name r : List Char} {ps : List Part} {rest : List Char} :
      name ≠ [] → '}' ∉ name → Reads r ps rest →
      Reads ('$' :: '{' :: (name ++ '}' :: r)) (.reference name :: ps) rest
  | /-- A name without braces ends in front of a character that is in no name. -/
    bare {name : List Char} {c : Char} {r : List Char} {ps : List Part} {rest : List Char} :
      name ≠ [] → (∀ c ∈ name, isName c) → isName c = false → Reads (c :: r) ps rest →
      Reads ('$' :: (name ++ c :: r)) (.reference name :: ps) rest
  | /-- A dollar sign without a name stands for itself, also in front of empty braces. -/
    dollar {c : Char} {r : List Char} {ps : List Part} {rest : List Char} :
      isName c = false → (c = '{' → r.head? = some '}') → Reads (c :: r) ps rest →
      Reads ('$' :: c :: r) (.char '$' :: ps) rest

/-- A text that leaves no reference open. -/
def Whole (cs : List Char) : Prop := ∃ ps, Reads cs ps []

theorem exists_reads (cs : List Char) : ∃ ps rest, Reads cs ps rest := by
  have read := grammar_parts cs
  generalize parts cs = ps at read
  induction read with
  | nil => exact ⟨_, _, .nil⟩
  | char ne _ ih =>
    obtain ⟨ps, rest, reads⟩ := ih
    exact ⟨_, rest, .char ne reads⟩
  | braced ne free _ ih =>
    obtain ⟨ps, rest, reads⟩ := ih
    exact ⟨_, rest, .braced ne free reads⟩
  | @bare name r _ ne all stop _ ih =>
    -- a name at the end of the text is left open
    cases r with
    | nil =>
      rw [List.append_nil]
      exact ⟨_, _, .name all⟩
    | cons c r =>
      obtain ⟨ps, rest, reads⟩ := ih
      exact ⟨_, rest, .bare ne all (stop c rfl) reads⟩
  | @dollar r _ stop brace _ ih =>
    cases r with
    | nil => exact ⟨_, _, .name (List.forall_mem_nil _)⟩
    | cons c r =>
      obtain ⟨ps, rest, reads⟩ := ih
      refine ⟨_, rest, .dollar (stop c rfl) (fun h ↦ brace r ?_) reads⟩
      rw [h]
  | unclosed free => exact ⟨_, _, .brace free⟩

/-- A reference that is left open is a name without braces or a brace that is not closed. -/
theorem Reads.open_cases (h : Reads cs ps rest) :
    rest = [] ∨ (∃ name, (∀ c ∈ name, isName c) ∧ rest = '$' :: name) ∨
      ∃ name, '}' ∉ name ∧ rest = '$' :: '{' :: name := by
  induction h with
  | nil => exact .inl rfl
  | name all => exact .inr (.inl ⟨_, all, rfl⟩)
  | brace free => exact .inr (.inr ⟨_, free, rfl⟩)
  | char _ _ ih | braced _ _ _ ih | bare _ _ _ _ ih | dollar _ _ _ ih => exact ih

/-- What follows a text is read together with the reference that the text leaves open, and the parts
before that are what they are. -/
theorem Reads.parts_append (h : Reads cs ps rest) (r : List Char) :
    parts (cs ++ r) = ps ++ parts (rest ++ r) := by
  induction h with
  | nil | name | brace => rfl
  | char ne _ ih => rw [List.cons_append, parts_char ne, ih, List.cons_append]
  | @braced name s _ _ ne free _ ih =>
    have apart : '$' :: '{' :: (name ++ '}' :: s) ++ r = '$' :: '{' :: (name ++ '}' :: (s ++ r)) := by
      simp
    rw [apart, parts_braced ne free, ih, List.cons_append]
  | @bare name c s _ _ ne all stop _ ih =>
    have apart : '$' :: (name ++ c :: s) ++ r = '$' :: (name ++ (c :: s ++ r)) := by
      simp
    rw [apart, parts_bare ne all, ih, List.cons_append]
    rintro _ ⟨⟩
    exact stop
  | @dollar c s _ _ stop brace _ ih =>
    rw [List.cons_append, parts_dollar, ih, List.cons_append]
    · rintro _ ⟨⟩
      exact stop
    · rintro _ ⟨⟩
      show (s ++ r).head? = some '}'
      rw [List.head?_append, brace rfl]
      rfl

/-- A text that leaves nothing open is read the same whatever follows. -/
theorem Whole.parts_append (h : Whole cs) (r : List Char) :
    parts (cs ++ r) = parts cs ++ parts r := by
  obtain ⟨ps, reads⟩ := h
  have alone := reads.parts_append []
  rw [List.append_nil, List.append_nil, parts, List.append_nil] at alone
  rw [reads.parts_append, alone, List.nil_append]

end ShaderChannels.Template
