import ShaderChannels.Proofs.Binding.Wildcard
import ShaderChannels.Proofs.Path.Expansion

/-!
# Variables that mirror wildcards

A wildcard in the name of a variable is lost when the variable is filled in, and the value may bring
in others.  Here is a value for every variable with which neither happens: it has as many wildcards
as the reference, so that a path with one wildcard has one wildcard when it is expanded.

* `CubeMap.mirror` — the surroundings in which each variable has that value.
* `CubeMap.mirrors_parts` — filling in these values keeps the number of wildcards.
* `CubeMap.exists_expandHome_mirror` — so does expanding the home directory, and it succeeds if it
  can succeed at all.
-/

namespace ShaderChannels.CubeMap

open Template

variable {env : Environment}

/-! ## Counting wildcards -/

theorem wildcards_cons_of_ne {c : Char} {r : List Char} (h : ¬ (c = '{' ∧ r.head? = some '}')) :
    wildcards (c :: r) = wildcards r := by
  rw [wildcards]
  rintro s rfl rfl
  exact h ⟨rfl, rfl⟩

/-- A text counts as many wildcards as another that starts with the same character, if what follows
does and is closed alike. -/
theorem wildcards_cons_congr {c : Char} {r s : List Char} (count : wildcards r = wildcards s)
    (close : r.head? = some '}' ↔ s.head? = some '}') : wildcards (c :: r) = wildcards (c :: s) := by
  by_cases h : c = '{' ∧ r.head? = some '}'
  · obtain ⟨rfl, hr⟩ := h
    obtain ⟨r, rfl⟩ := List.head?_eq_some_iff.mp hr
    obtain ⟨s, rfl⟩ := List.head?_eq_some_iff.mp (close.mp hr)
    rw [wildcards_cons_of_ne (by simp), wildcards_cons_of_ne (by simp)] at count
    rw [wildcards, wildcards, count]
  · rw [wildcards_cons_of_ne h, wildcards_cons_of_ne fun h' ↦ h ⟨h'.1, close.mpr h'.2⟩, count]

/-- Up to a closing brace there is one wildcard at most, at that brace. -/
theorem wildcards_append_brace {name : List Char} (free : '}' ∉ name) (r : List Char) :
    wildcards (name ++ '}' :: r) =
      wildcards r + if name.getLast? = some '{' then 1 else 0 := by
  match name with
  | [] => exact wildcards_cons_of_ne (by simp)
  | [c] =>
    by_cases brace : c = '{'
    · subst brace
      rfl
    · have last : [c].getLast? ≠ some '{' := fun h ↦ brace (Option.some.inj h)
      rw [List.singleton_append, wildcards_cons_of_ne (brace ·.1), wildcards_cons_of_ne (by simp),
        if_neg last, Nat.add_zero]
  | c :: d :: name =>
    rw [List.mem_cons, not_or] at free
    have apart : ¬ (c = '{' ∧ (d :: (name ++ '}' :: r)).head? = some '}') := by
      rintro ⟨-, ⟨⟩⟩
      exact free.2 List.mem_cons_self
    rw [List.getLast?_cons_cons, ← wildcards_append_brace free.2 r]
    exact wildcards_cons_of_ne apart

theorem wildcards_append_plain {name : List Char} (free : '{' ∉ name) (r : List Char) :
    wildcards (name ++ r) = wildcards r := by
  induction name with
  | nil => rfl
  | cons c name ih =>
    rw [List.mem_cons, not_or] at free
    rw [List.cons_append, wildcards_cons_of_ne fun h ↦ free.1 h.1.symm, ih free.2]

/-! ## Values with wildcards -/

/-- A value for a variable: it has a wildcard exactly if the name, in braces, ends with one, and
starts with a slash, so that a tilde in front of the variable stands for the home directory. -/
def value (name : List Char) : List Char :=
  if name.getLast? = some '{' then ['/', '{', '}'] else ['/', '/']

/-- Surroundings in which each variable has this value. -/
def mirror : Environment where
  lookup name := some (String.ofList (value name.toList))
  accountHome := none

theorem mirror_lookup (name : List Char) :
    mirror.lookup (String.ofList name) = some (String.ofList (value name)) := by
  show some (String.ofList (value (String.ofList name).toList)) = _
  rw [String.toList_ofList]

theorem filled_mirror_iff {name out : List Char} {ps : List Part} :
    Filled mirror (.reference name :: ps) out ↔
      ∃ cs, Filled mirror ps cs ∧ out = value name ++ cs := by
  simp only [filled_reference_iff, mirror_lookup, Option.some.injEq]
  constructor
  · rintro ⟨_, cs, rfl, filled, rfl⟩
    rw [String.toList_ofList]
    exact ⟨cs, filled, rfl⟩
  · rintro ⟨cs, filled, rfl⟩
    exact ⟨_, cs, rfl, filled, by rw [String.toList_ofList]⟩

theorem wildcards_value (name r : List Char) :
    wildcards (value name ++ r) =
      wildcards r + if name.getLast? = some '{' then 1 else 0 := by
  rw [value]
  split_ifs <;> rfl

/-- A slash and a character that is in no name. -/
theorem exists_value_eq (name : List Char) : ∃ c r, value name = '/' :: c :: r ∧ isName c = false := by
  rw [value]
  split_ifs
  · exact ⟨'{', ['}'], rfl, rfl⟩
  · exact ⟨'/', [], rfl, rfl⟩

theorem value_eq_of_plain {name : List Char} (all : ∀ c ∈ name, isName c) :
    value name = ['/', '/'] :=
  if_neg fun last ↦ not_mem_of_isName all rfl (List.mem_of_getLast? last)

/-! ## Paths that keep their wildcards -/

/-- `Mirrors ps cs`: filled with these values, the parts `ps` have as many wildcards as the text
`cs`, and end one that is begun right in front of them if the text does. -/
def Mirrors (ps : List Part) (cs : List Char) : Prop :=
  ∃ out, Filled mirror ps out ∧ wildcards out = wildcards cs ∧
    (out.head? = some '}' ↔ cs.head? = some '}')

namespace Mirrors

variable {ps : List Part} {cs name : List Char}

theorem nil : Mirrors [] [] := ⟨[], .nil, rfl, Iff.rfl⟩

theorem char (h : Mirrors ps cs) (c : Char) : Mirrors (.char c :: ps) (c :: cs) := by
  obtain ⟨out, filled, count, close⟩ := h
  exact ⟨c :: out, .char filled, wildcards_cons_congr count close, Iff.rfl⟩

theorem reference (h : Mirrors ps cs) (name : List Char) {ds : List Char}
    (count : wildcards ('$' :: ds) = wildcards cs + if name.getLast? = some '{' then 1 else 0) :
    Mirrors (.reference name :: ps) ('$' :: ds) := by
  obtain ⟨out, filled, same, -⟩ := h
  refine ⟨value name ++ out, filled_mirror_iff.mpr ⟨out, filled, rfl⟩, ?_, ?_⟩
  · rw [wildcards_value, same, count]
  · obtain ⟨c, r, eq, -⟩ := exists_value_eq name
    rw [eq]
    simp

/-- A name without braces has no wildcard. -/
theorem bare (h : Mirrors ps cs) (all : ∀ c ∈ name, isName c) :
    Mirrors (.reference name :: ps) ('$' :: (name ++ cs)) := by
  have brace : '{' ∉ name := not_mem_of_isName all rfl
  have last : name.getLast? ≠ some '{' := fun last ↦ brace (List.mem_of_getLast? last)
  refine h.reference name ?_
  rw [if_neg last, wildcards_cons_of_ne (by simp), wildcards_append_plain brace, Nat.add_zero]

/-- A name in braces has a wildcard if it ends with an opening brace. -/
theorem braced (h : Mirrors ps cs) (ne : name ≠ []) (free : '}' ∉ name) :
    Mirrors (.reference name :: ps) ('$' :: '{' :: (name ++ '}' :: cs)) := by
  have apart : (name ++ '}' :: cs).head? ≠ some '}' := by
    obtain ⟨c, name, rfl⟩ := List.exists_cons_of_ne_nil ne
    rintro ⟨⟩
    exact free List.mem_cons_self
  refine h.reference name ?_
  rw [wildcards_cons_of_ne (by simp), wildcards_cons_of_ne (apart ·.2), wildcards_append_brace free]

end Mirrors

/-- Filling in these values keeps the number of wildcards. -/
theorem mirrors_parts {cs : List Char} (closed : .unclosed ∉ parts cs) : Mirrors (parts cs) cs := by
  obtain ⟨ps, rest, reads⟩ := exists_reads cs
  -- Along the rules of reading: what is open at the end of the text is read with nothing after it.
  induction reads with
  | nil =>
    rw [parts]
    exact .nil
  | @name name all =>
    rcases eq_or_ne name [] with rfl | ne
    · rw [parts_dollar (by simp) (by simp), parts]
      exact Mirrors.nil.char '$'
    · have alone := parts_bare (r := []) ne all (by simp)
      rw [List.append_nil] at alone
      have filled := Mirrors.nil.bare all
      rw [List.append_nil] at filled
      rw [alone, parts]
      exact filled
  | brace free => exact absurd (List.mem_singleton.mpr rfl) (parts_unclosed free ▸ closed)
  | char ne _ ih =>
    rw [parts_char ne] at closed ⊢
    exact (ih (List.not_mem_of_not_mem_cons closed)).char _
  | braced ne free _ ih =>
    rw [parts_braced ne free] at closed ⊢
    exact (ih (List.not_mem_of_not_mem_cons closed)).braced ne free
  | bare ne all stop _ ih =>
    rw [parts_bare ne all (by simpa using stop)] at closed ⊢
    exact (ih (List.not_mem_of_not_mem_cons closed)).bare all
  | dollar stop brace _ ih =>
    rw [parts_dollar (by simpa using stop) (by simpa using brace)] at closed ⊢
    exact (ih (List.not_mem_of_not_mem_cons closed)).char _

/-- With these values, a path that has a slash next still has one. -/
theorem head?_filled_mirror {ps : List Part} {cs ds : List Char} (h : Filled env ps cs)
    (h' : Filled mirror ps ds) (slash : cs = [] ∨ cs.head? = some '/') :
    ds = [] ∨ ds.head? = some '/' := by
  cases h with
  | nil =>
    cases h'
    exact .inl rfl
  | char _ =>
    obtain ⟨ds, -, rfl⟩ := filled_char_iff.mp h'
    exact .inr (slash.resolve_left (List.cons_ne_nil _ _))
  | @reference name =>
    obtain ⟨c, r, eq, -⟩ := exists_value_eq name
    obtain ⟨ds, -, rfl⟩ := filled_mirror_iff.mp h'
    rw [eq]
    exact .inr rfl

/-- With these values, whatever can be expanded at all can be expanded, and that keeps the number of
wildcards. -/
theorem exists_expandHome_mirror {ps : List Part} {cs ds out : List Char} (h : Filled env ps cs)
    (expanded : expandHome env cs = .ok out) (h' : Filled mirror ps ds) :
    ∃ out', expandHome mirror ds = .ok out' ∧ wildcards out' = wildcards ds := by
  by_cases tilde : ds.head? = some '~'
  · cases h' with
    | nil => exact nomatch tilde
    | char after' =>
      cases tilde
      obtain ⟨cs, after, rfl⟩ := filled_char_iff.mp h
      obtain ⟨slash, -⟩ := expandHome_tilde_iff.mp expanded
      exact ⟨_, expandHome_tilde_iff.mpr ⟨head?_filled_mirror after after' slash, "//", rfl, rfl⟩, rfl⟩
    | @reference name _ _ _ found after' =>
      obtain ⟨c, r, eq, -⟩ := exists_value_eq name
      obtain ⟨_, -, same⟩ := filled_mirror_iff.mp (.reference found after')
      rw [same, eq] at tilde
      exact nomatch tilde
  · exact ⟨ds, expandHome_of_ne tilde, rfl⟩

end ShaderChannels.CubeMap
