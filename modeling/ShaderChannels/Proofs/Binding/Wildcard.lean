import Mathlib.Tactic.ByContra
import ShaderChannels.Binding.CubeMap

/-!
# Wildcards and faces

A pattern with exactly one wildcard is text around that wildcard, and the path of a face is the
face's name between the same two stretches.  `Wildcard p a z` says so without counting: there is one
way only to cut `p` at a wildcard, and it leaves `a` and `z`.

* `CubeMap.hasSingleWildcard_iff` — counting wildcards finds exactly the patterns that can be cut in
  one way.
* `CubeMap.fill_eq` — filling in a name puts it between the two stretches.
* `CubeMap.discover_eq_some_iff`, `CubeMap.discover_eq_none_iff` — the faces found are those of the
  first convention whose files all exist, and none are found if every convention lacks a file.
-/

namespace ShaderChannels.CubeMap

/-! ## Cutting at a wildcard -/

/-- `Wildcard p a z`: the pattern `p` has exactly one wildcard, with `a` before it and `z` after
it. -/
structure Wildcard (p : String) (a z : List Char) : Prop where
  eq : p.toList = a ++ '{' :: '}' :: z
  unique : ∀ a' z', p.toList = a' ++ '{' :: '}' :: z' → a' = a

/-- A character that starts no wildcard starts none with a wildcard further on either: if nothing
lies between the two, it is followed by an opening brace. -/
theorem no_wildcard_append {c : Char} {r : List Char}
    (h : ∀ rest, c = '{' → r = '}' :: rest → False) (z : List Char) :
    ∀ rest, c = '{' → r ++ '{' :: '}' :: z = '}' :: rest → False := by
  rintro rest rfl hr
  cases r with
  | nil => exact absurd (List.cons.inj hr).1 (by decide)
  | cons d r =>
    obtain ⟨rfl, -⟩ := List.cons.inj hr
    exact h r rfl rfl

/-- The wildcards around a wildcard are counted apart from it. -/
theorem wildcards_append (a z : List Char) :
    wildcards (a ++ '{' :: '}' :: z) = wildcards a + wildcards z + 1 := by
  fun_induction wildcards a with
  | case1 r ih =>
    rw [List.cons_append, List.cons_append, wildcards, ih]
    omega
  | case2 c r other ih =>
    rw [List.cons_append, wildcards, ih]
    exact no_wildcard_append other z
  | case3 => simp [wildcards]

/-- A text without wildcards cannot be cut at one. -/
theorem wildcards_eq_zero_iff (cs : List Char) :
    wildcards cs = 0 ↔ ∀ a z, cs ≠ a ++ '{' :: '}' :: z := by
  constructor
  · rintro h a z rfl
    rw [wildcards_append] at h
    omega
  · intro h
    fun_induction wildcards cs with
    | case1 r => exact absurd rfl (h [] r)
    | case2 c r _ ih =>
      refine ih fun a z hr ↦ h (c :: a) z ?_
      rw [hr, List.cons_append]
    | case3 => rfl

/-- Two cuts at wildcards of which the later has no wildcard before it are the same. -/
theorem eq_of_append_eq {a a' z z' : List Char} (le : a.length ≤ a'.length)
    (h : a ++ '{' :: '}' :: z = a' ++ '{' :: '}' :: z') (none : wildcards a' = 0) : a' = a := by
  obtain ⟨w, rfl⟩ : a <+: a' := by
    refine List.prefix_of_prefix_length_le ⟨_, h⟩ ⟨_, rfl⟩ le
  rw [List.append_assoc, List.append_cancel_left_eq] at h
  match w, h with
  | [], _ => exact List.append_nil a
  | [c], h => exact absurd (List.cons.inj (List.cons.inj h).2).1 (by decide)
  | c :: d :: w, h =>
    simp only [List.cons_append, List.cons.injEq] at h
    obtain ⟨rfl, rfl, -⟩ := h
    exact absurd rfl ((wildcards_eq_zero_iff _).mp none a w)

namespace Wildcard

variable {p : String} {a z : List Char}

/-- A pattern is cut at its only wildcard in one way. -/
theorem cut_unique {a' z' : List Char} (h : Wildcard p a z) (h' : Wildcard p a' z') :
    a = a' ∧ z = z' := by
  obtain rfl : a = a' := h'.unique a z h.eq
  have cut := h.eq.symm.trans h'.eq
  simp only [List.append_cancel_left_eq, List.cons.injEq, true_and] at cut
  exact ⟨rfl, cut⟩

/-- No wildcard lies before the only one. -/
theorem wildcards_before (h : Wildcard p a z) : wildcards a = 0 := by
  refine (wildcards_eq_zero_iff a).mpr fun a₁ a₂ cut ↦ ?_
  have same : a₁ = a := h.unique a₁ (a₂ ++ '{' :: '}' :: z) (by rw [h.eq, cut]; simp)
  rw [← same] at cut
  simpa using congrArg List.length cut

/-- No wildcard lies after the only one. -/
theorem wildcards_after (h : Wildcard p a z) : wildcards z = 0 := by
  refine (wildcards_eq_zero_iff z).mpr fun z₁ z₂ cut ↦ ?_
  have same := h.unique (a ++ '{' :: '}' :: z₁) z₂ (by rw [h.eq, cut]; simp)
  simpa using congrArg List.length same

end Wildcard

/-- Counting wildcards finds exactly the patterns that can be cut at a wildcard in one way. -/
theorem hasSingleWildcard_iff (p : String) : hasSingleWildcard p ↔ ∃ a z, Wildcard p a z := by
  rw [hasSingleWildcard, beq_iff_eq]
  constructor
  · intro one
    obtain ⟨a, z, h⟩ : ∃ a z, p.toList = a ++ '{' :: '}' :: z := by
      by_contra no
      have zero := (wildcards_eq_zero_iff p.toList).mpr fun a z h ↦ no ⟨a, z, h⟩
      omega
    refine ⟨a, z, h, fun a' z' h' ↦ ?_⟩
    have ha := wildcards_append a z
    have ha' := wildcards_append a' z'
    rw [← h] at ha
    rw [← h'] at ha'
    rcases Nat.le_total a.length a'.length with le | le
    · exact eq_of_append_eq le (h.symm.trans h') (by omega)
    · exact (eq_of_append_eq le (h'.symm.trans h) (by omega)).symm
  · rintro ⟨a, z, h⟩
    rw [h.eq, wildcards_append, h.wildcards_before, h.wildcards_after]

/-! ## Filling in names -/

/-- Filling in a name puts it in the place of the first wildcard. -/
theorem fillChars_append {a : List Char} (h : wildcards a = 0) (name z : List Char) :
    fillChars name (a ++ '{' :: '}' :: z) = a ++ (name ++ z) := by
  fun_induction wildcards a with
  | case1 r => exact absurd h (Nat.succ_ne_zero _)
  | case2 c r other ih =>
    rw [List.cons_append, fillChars, ih h, List.cons_append]
    exact no_wildcard_append other z
  | case3 => rfl

/-- The path of the face called `name`: that name between `a` and `z`. -/
def facePath (a z : List Char) (name : String) : String := String.ofList (a ++ (name.toList ++ z))

/-- Filling in a name puts it between the two stretches around the wildcard. -/
theorem fill_eq {p : String} {a z : List Char} (h : Wildcard p a z) :
    fill p = facePath a z := by
  funext name
  rw [fill, h.eq, fillChars_append h.wildcards_before, facePath]

/-! ## Discovery -/

section

variable (host : Host) (a z : List Char)

/-- All six files of a naming convention exist. -/
def Complete (names : Faces String) : Prop :=
  ∀ name ∈ names.toList, host.fileExists (facePath a z name)

/-- A convention is complete, and none that is tried before it is. -/
def FirstComplete (names : Faces String) : Prop :=
  ∃ before after, conventions = before ++ names :: after ∧ Complete host a z names ∧
    ∀ earlier ∈ before, ¬ Complete host a z earlier

end

variable {host : Host} {p : String} {a z : List Char}

theorem FirstComplete.mem {names : Faces String} (h : FirstComplete host a z names) :
    names ∈ conventions := by
  obtain ⟨before, after, cut, -⟩ := h
  exact cut ▸ List.mem_append_cons_self

theorem FirstComplete.complete {names : Faces String} (h : FirstComplete host a z names) :
    Complete host a z names := by
  obtain ⟨before, after, -, complete, -⟩ := h
  exact complete

/-- Looking for the faces of a convention finds them if the convention is complete. -/
theorem all_fileExists_iff (names : Faces String) :
    (names.map (facePath a z)).toList.all host.fileExists ↔ Complete host a z names := by
  rw [Faces.toList_map, List.all_map, List.all_eq_true]
  rfl

/-- Looking for the faces of a convention passes it over if the convention is not complete. -/
theorem not_all_fileExists_iff (names : Faces String) :
    (!(names.map (facePath a z)).toList.all host.fileExists) ↔ ¬ Complete host a z names := by
  rw [Bool.not_eq_true', Bool.eq_false_iff]
  exact not_congr (all_fileExists_iff names)

/-- The faces found are those of the first convention that is complete, wherever the names are filled
in. -/
theorem discover_eq_some_iff_of_fill (h : fill p = facePath a z) {faces : Faces String} :
    discover host p = some faces ↔
      ∃ names, FirstComplete host a z names ∧ faces = names.map (facePath a z) := by
  rw [discover, candidates, h, List.find?_map, Option.map_eq_some_iff]
  constructor
  · rintro ⟨names, found, rfl⟩
    obtain ⟨all, before, after, cut, missing⟩ := List.find?_eq_some_iff_append.mp found
    refine ⟨names, ⟨before, after, cut, (all_fileExists_iff names).mp all, ?_⟩, rfl⟩
    exact fun earlier he ↦ (not_all_fileExists_iff earlier).mp (missing earlier he)
  · rintro ⟨names, ⟨before, after, cut, complete, missing⟩, rfl⟩
    refine ⟨names, List.find?_eq_some_iff_append.mpr ⟨?_, before, after, cut, ?_⟩, rfl⟩
    · exact (all_fileExists_iff names).mpr complete
    · exact fun earlier he ↦ (not_all_fileExists_iff earlier).mpr (missing earlier he)

/-- No faces are found exactly if no convention is complete, wherever the names are filled in. -/
theorem discover_eq_none_iff_of_fill (h : fill p = facePath a z) :
    discover host p = none ↔ ∀ names ∈ conventions, ¬ Complete host a z names := by
  rw [discover, candidates, h, List.find?_map, Option.map_eq_none_iff, List.find?_eq_none]
  refine forall₂_congr fun names _ ↦ not_congr ?_
  exact all_fileExists_iff names

/-- The faces found for a pattern with one wildcard are those of the first convention that is
complete. -/
theorem discover_eq_some_iff (h : Wildcard p a z) {faces : Faces String} :
    discover host p = some faces ↔
      ∃ names, FirstComplete host a z names ∧ faces = names.map (facePath a z) :=
  discover_eq_some_iff_of_fill (fill_eq h)

/-- No faces are found for a pattern with one wildcard exactly if no convention is complete. -/
theorem discover_eq_none_iff (h : Wildcard p a z) :
    discover host p = none ↔ ∀ names ∈ conventions, ¬ Complete host a z names :=
  discover_eq_none_iff_of_fill (fill_eq h)

end ShaderChannels.CubeMap
