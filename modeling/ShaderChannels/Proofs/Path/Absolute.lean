import ShaderChannels.Proofs.Path.Expansion

/-!
# Absolute paths

Seen from an absolute base, every path is absolute.  What stands behind the base makes no
difference: a variable or the home directory may hold any text, and what it holds may be absolute
itself.  An absolute path that refers to nothing is where anchoring ends: it is anchored to itself
by any resolver, whatever the base and the environment.

* `Path.isAbsolute_join` — joining keeps paths absolute.
* `PathResolver.anchor_of_isAbsolute` — absolute paths without a dollar sign are anchored to
  themselves.
* `PathResolver.anchor_absolute` — what a path is anchored to from an absolute base.
-/

namespace ShaderChannels

namespace Path

variable {base p : String}

theorem isAbsolute_iff : isAbsolute p ↔ p.toList.head? = some '/' := beq_iff_eq

theorem isAbsolute_append (absolute : isAbsolute base) (p : String) : isAbsolute (base ++ p) := by
  rw [isAbsolute_iff] at absolute ⊢
  rw [String.toList_append, List.head?_append, absolute, Option.some_or]

theorem join_of_isAbsolute (absolute : isAbsolute p) (base : String) : join base p = p :=
  if_pos absolute

/-- A relative path stands behind the base and a slash, which may be that of the base. -/
theorem join_of_not_isAbsolute (absolute : isAbsolute base) (relative : ¬ isAbsolute p) :
    join base p = base ++ (if base.toList.getLast? = some '/' then "" else "/") ++ p := by
  have inhabited : base.toList.isEmpty = false := by
    obtain ⟨cs, eq⟩ := List.head?_eq_some_iff.mp (isAbsolute_iff.mp absolute)
    rw [eq, List.isEmpty_cons]
  rw [join, if_neg relative, inhabited, Bool.false_or]
  simp only [beq_iff_eq]
  split_ifs
  · rw [String.append_empty]
  · rfl

theorem isAbsolute_join (absolute : isAbsolute base) (p : String) : isAbsolute (join base p) := by
  by_cases own : isAbsolute p
  · rwa [join_of_isAbsolute own]
  · rw [join_of_not_isAbsolute absolute own]
    exact isAbsolute_append (isAbsolute_append absolute _) p

end Path

namespace PathResolver

variable {r : PathResolver} {input q : String}

theorem exists_expand_of_anchor (h : r.anchor input = .ok q) :
    ∃ expanded, r.expand input = .ok expanded ∧ q = Path.join r.base expanded := by
  obtain ⟨-, filled, out, parts, home, rfl⟩ := anchor_eq_ok_iff.mp h
  exact ⟨_, expand_eq_ok_iff.mpr ⟨filled, out, parts, home, rfl⟩, rfl⟩

/-- An absolute path without a dollar sign is anchored to itself. -/
theorem anchor_of_isAbsolute (absolute : Path.isAbsolute q) (plain : '$' ∉ q.toList)
    (r : PathResolver) : r.anchor q = .ok q := by
  have slash := Path.isAbsolute_iff.mp absolute
  refine anchor_eq_ok_iff.mpr ⟨?_, q.toList, q.toList, ?_, expandHome_of_ne ?_, ?_⟩
  · rintro rfl
    exact nomatch slash
  · have nothing : Template.Filled r.env (Template.parts []) [] := by
      rw [Template.parts]
      exact .nil
    have filled := nothing.plain plain
    rwa [List.append_nil] at filled
  · rw [slash]
    decide
  · rw [String.ofList_toList, Path.join_of_isAbsolute absolute]

/-- **Anchoring is absolute and idempotent.**  From an absolute base, a path that can be anchored is
anchored to an absolute path: the path as expanded, if that is absolute, and else the base with the
expanded path behind it and a slash between them.  If there is no dollar sign in it, it is anchored
to itself from then on, by this resolver and by any other. -/
theorem anchor_absolute {r : PathResolver} (absolute : Path.isAbsolute r.base) {input q : String}
    (h : r.anchor input = .ok q) :
    Path.isAbsolute q ∧
    (∃ expanded, r.expand input = .ok expanded ∧
      (Path.isAbsolute expanded → q = expanded) ∧
      (¬ Path.isAbsolute expanded →
        q = r.base ++ (if r.base.toList.getLast? = some '/' then "" else "/") ++ expanded)) ∧
    ('$' ∉ q.toList → ∀ r' : PathResolver, r'.anchor q = .ok q) := by
  obtain ⟨expanded, found, rfl⟩ := exists_expand_of_anchor h
  have joined := Path.isAbsolute_join absolute expanded
  refine ⟨joined, ⟨expanded, found, ?_, ?_⟩, fun plain r' ↦ anchor_of_isAbsolute joined plain r'⟩
  · exact fun own ↦ Path.join_of_isAbsolute own r.base
  · exact fun relative ↦ Path.join_of_not_isAbsolute absolute relative

/-- A tilde that comes from a variable, and a relative path with a slash too many. -/
theorem anchor_absolute_home :
    let r : PathResolver := ⟨"/shaders/demo", .ofList [("HOME", "/home/u"), ("TEX", "~")]⟩
    Path.isAbsolute r.base ∧
      r.anchor "$TEX/a.png" = .ok "/home/u/a.png" ∧
      r.anchor "tex//b.png" = .ok "/shaders/demo/tex//b.png" ∧
      ∀ r' : PathResolver, r'.anchor "/home/u/a.png" = .ok "/home/u/a.png" ∧
        r'.anchor "/shaders/demo/tex//b.png" = .ok "/shaders/demo/tex//b.png" := by
  intro r
  have absolute : Path.isAbsolute r.base := by decide
  have home : r.anchor "$TEX/a.png" = .ok "/home/u/a.png" :=
    toOption_eq_some_iff.mp (by decide +kernel)
  have base : r.anchor "tex//b.png" = .ok "/shaders/demo/tex//b.png" :=
    toOption_eq_some_iff.mp (by decide +kernel)
  obtain ⟨-, -, again⟩ := anchor_absolute absolute home
  obtain ⟨-, -, again'⟩ := anchor_absolute absolute base
  exact ⟨absolute, home, base, fun r' ↦ ⟨again (by decide) r', again' (by decide) r'⟩⟩

end PathResolver

end ShaderChannels
