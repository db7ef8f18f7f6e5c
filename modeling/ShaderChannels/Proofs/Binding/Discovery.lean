import Mathlib.Data.List.Nodup
import ShaderChannels.Proofs.Binding.Wildcard

/-!
# Discovery of faces

A name takes the place of the first wildcard of a pattern, whatever comes after it: other wildcards,
or braces that make up none.  So the paths that discovery looks at lie between the same two stretches
of text, and the six of them that it returns belong to the first convention whose files are all
there.

* `FirstWildcard` — what comes before and after the first wildcard of a pattern.
* `nodup_paths` — the six paths of a convention differ.
* `Discovers` — which faces are found between two stretches of text, and when none are.
* `discover_exact` — patterns with one wildcard, with more, and with none.
-/

namespace ShaderChannels.CubeMap

variable {host : Host} {p : String} {a z : List Char}

/-! ## The first wildcard -/

/-- `FirstWildcard p a z`: the first wildcard of `p` has `a` before it and `z` after it. -/
structure FirstWildcard (p : String) (a z : List Char) : Prop where
  eq : p.toList = a ++ '{' :: '}' :: z
  first : ∀ a' z', a ≠ a' ++ '{' :: '}' :: z'

/-- The only wildcard is the first one. -/
theorem Wildcard.first (h : Wildcard p a z) : FirstWildcard p a z :=
  ⟨h.eq, (wildcards_eq_zero_iff a).mp h.wildcards_before⟩

/-- A text with a wildcard has a first one. -/
theorem exists_first (cs : List Char) (h : wildcards cs ≠ 0) :
    ∃ a z, cs = a ++ '{' :: '}' :: z ∧ wildcards a = 0 := by
  fun_induction wildcards cs with
  | case1 r => exact ⟨[], r, rfl, rfl⟩
  | case2 c r other ih =>
    obtain ⟨a, z, rfl, none⟩ := ih h
    refine ⟨c :: a, z, rfl, ?_⟩
    -- the character starts no wildcard with what is left of the text before the first one either
    rw [wildcards]
    · exact none
    · rintro rest rfl rfl
      exact other _ rfl rfl
  | case3 => exact absurd rfl h

theorem exists_firstWildcard_iff :
    (∃ a z, FirstWildcard p a z) ↔ ∃ a z, p.toList = a ++ '{' :: '}' :: z := by
  constructor
  · rintro ⟨a, z, h⟩
    exact ⟨a, z, h.eq⟩
  · rintro ⟨a, z, cut⟩
    have some : wildcards p.toList ≠ 0 := fun none ↦ (wildcards_eq_zero_iff _).mp none a z cut
    obtain ⟨a, z, cut, none⟩ := exists_first p.toList some
    exact ⟨a, z, cut, (wildcards_eq_zero_iff a).mp none⟩

/-- A name takes the place of the first wildcard. -/
theorem FirstWildcard.fill_eq (h : FirstWildcard p a z) : fill p = facePath a z := by
  funext name
  rw [fill, h.eq, fillChars_append ((wildcards_eq_zero_iff a).mpr h.first), facePath]

/-- Without a wildcard there is no place for a name. -/
theorem fillChars_of_wildcards {cs : List Char} (h : wildcards cs = 0) (name : List Char) :
    fillChars name cs = cs := by
  fun_induction wildcards cs with
  | case1 r => exact absurd h (Nat.succ_ne_zero _)
  | case2 c r other ih => rw [fillChars, ih h]; exact other
  | case3 => rfl

theorem fill_of_wildcards (h : wildcards p.toList = 0) (name : String) : fill p name = p := by
  rw [fill, fillChars_of_wildcards h, String.ofList_toList]

/-! ## Paths of faces -/

/-- Different names make different paths. -/
theorem facePath_injective (a z : List Char) : Function.Injective (facePath a z) := by
  intro name name' same
  rw [facePath, facePath, String.ofList_inj, List.append_cancel_left_eq,
    List.append_cancel_right_eq] at same
  exact String.toList_inj.mp same

/-- The faces of a convention have names of their own. -/
theorem nodup_names : ∀ names ∈ conventions, names.toList.Nodup := by
  decide +kernel

theorem nodup_paths (a z : List Char) :
    ∀ names ∈ conventions, (names.map (facePath a z)).toList.Nodup := by
  intro names hn
  rw [Faces.toList_map]
  exact (nodup_names names hn).map (facePath_injective a z)

/-! ## What is found -/

/-- `Discovers host p a z`: for the pattern `p` discovery looks for the faces whose paths are a name
between `a` and `z`. -/
structure Discovers (host : Host) (p : String) (a z : List Char) : Prop where
  fill_eq : ∀ name, fill p name = facePath a z name
  /-- Nothing is found exactly if each convention lacks a file. -/
  none_iff : discover host p = none ↔
    ∀ names ∈ conventions, ∃ name ∈ names.toList, ¬ host.fileExists (facePath a z name)
  /-- The faces of a convention are found exactly if all of its files exist and each one that is
  tried before lacks a file. -/
  some_iff : ∀ faces, discover host p = some faces ↔
    ∃ before names after, conventions = before ++ names :: after ∧
      (∀ name ∈ names.toList, host.fileExists (facePath a z name)) ∧
      (∀ earlier ∈ before, ∃ name ∈ earlier.toList, ¬ host.fileExists (facePath a z name)) ∧
      faces = names.map (facePath a z)
  distinct : ∀ faces, discover host p = some faces → faces.toList.Nodup

theorem not_complete_iff {names : Faces String} :
    ¬ Complete host a z names ↔
      ∃ name ∈ names.toList, ¬ host.fileExists (facePath a z name) := by
  simp only [Complete, not_forall, exists_prop]

theorem Discovers.of_fill (host : Host) (h : fill p = facePath a z) : Discovers host p a z where
  fill_eq := congrFun h
  none_iff := by
    rw [discover_eq_none_iff_of_fill h]
    exact forall₂_congr fun names _ ↦ not_complete_iff
  some_iff faces := by
    rw [discover_eq_some_iff_of_fill h]
    constructor
    · rintro ⟨names, ⟨before, after, cut, complete, missing⟩, rfl⟩
      refine ⟨before, names, after, cut, complete, ?_, rfl⟩
      exact fun earlier he ↦ not_complete_iff.mp (missing earlier he)
    · rintro ⟨before, names, after, cut, complete, missing, rfl⟩
      refine ⟨names, ⟨before, after, cut, complete, ?_⟩, rfl⟩
      exact fun earlier he ↦ not_complete_iff.mpr (missing earlier he)
  distinct faces found := by
    obtain ⟨names, first, rfl⟩ := (discover_eq_some_iff_of_fill h).mp found
    exact nodup_paths a z names first.mem

/-- Without a wildcard the six faces are one file. -/
theorem discover_of_wildcards (h : wildcards p.toList = 0) :
    discover host p = if host.fileExists p then some ⟨p, p, p, p, p, p⟩ else none := by
  have same : candidates p = conventions.map fun _ ↦ ⟨p, p, p, p, p, p⟩ := by
    refine List.map_congr_left fun names _ ↦ ?_
    simp only [Faces.map, fill_of_wildcards h]
  rw [discover, same]
  by_cases there : host.fileExists p
  · rw [if_pos there]
    exact List.find?_cons_of_pos (by simp [Faces.toList, there])
  · rw [if_neg there, List.find?_eq_none]
    rintro faces hf
    obtain ⟨names, -, rfl⟩ := List.mem_map.mp hf
    simp [Faces.toList, there]

/-- **Discovery is exact.**  The patterns that are counted to have one wildcard are those that can be
cut at a wildcard in one way.  For such a pattern, the faces found are those of the first convention
whose six files all exist, in order and all different, and none are found exactly if each convention
lacks a file.  For a pattern with more wildcards the same is true of the first of them, and the
others are left as they are.  For a pattern without wildcards each face is the pattern itself. -/
theorem discover_exact (host : Host) (p : String) :
    (hasSingleWildcard p ↔ ∃ a z, Wildcard p a z) ∧
    (∀ a z, Wildcard p a z → Discovers host p a z) ∧
    ((∃ a z, FirstWildcard p a z) ↔ ∃ a z, p.toList = a ++ '{' :: '}' :: z) ∧
    (∀ a z, FirstWildcard p a z → Discovers host p a z) ∧
    ((∀ a z, p.toList ≠ a ++ '{' :: '}' :: z) →
      (∀ name, fill p name = p) ∧
      discover host p = if host.fileExists p then some ⟨p, p, p, p, p, p⟩ else none) := by
  refine ⟨hasSingleWildcard_iff p, fun a z h ↦ .of_fill host h.first.fill_eq,
    exists_firstWildcard_iff, fun a z h ↦ .of_fill host h.fill_eq, fun none ↦ ?_⟩
  have zero := (wildcards_eq_zero_iff p.toList).mpr none
  exact ⟨fill_of_wildcards zero, discover_of_wildcards zero⟩

/-- A wildcard between braces, for which the first two conventions lack files; two wildcards, of which
the second one stays; and no wildcard. -/
theorem discover_exact_braced :
    let host : Host := .ofFiles
      ["c\x7be\x7d", "c\x7bw\x7d", "c\x7bpx\x7d", "c\x7bnx\x7d", "c\x7bpy\x7d", "c\x7bny\x7d",
        "c\x7bpz\x7d", "c\x7bnz\x7d", "sky.png"] "res://"
    let faces : Faces String :=
      ⟨"c\x7bpx\x7d", "c\x7bnx\x7d", "c\x7bpy\x7d", "c\x7bny\x7d", "c\x7bpz\x7d", "c\x7bnz\x7d"⟩
    Wildcard "c\x7b\x7b\x7d\x7d" ['c', '{'] ['}'] ∧
      discover host "c\x7b\x7b\x7d\x7d" = some faces ∧ faces.toList.Nodup ∧
      FirstWildcard "\x7b\x7d_\x7b\x7d" [] ['_', '{', '}'] ∧
      fill "\x7b\x7d_\x7b\x7d" "east" = "east_\x7b\x7d" ∧
      discover host "\x7b\x7d_\x7b\x7d" = none ∧
      (∀ a z, "sky.png".toList ≠ a ++ '{' :: '}' :: z) ∧
      discover host "sky.png" =
        some ⟨"sky.png", "sky.png", "sky.png", "sky.png", "sky.png", "sky.png"⟩ := by
  intro host faces
  obtain ⟨counted, single, -, -, -⟩ := discover_exact host "c\x7b\x7b\x7d\x7d"
  obtain ⟨-, -, -, first, -⟩ := discover_exact host "\x7b\x7d_\x7b\x7d"
  obtain ⟨-, -, -, -, none⟩ := discover_exact host "sky.png"
  have one : Wildcard "c\x7b\x7b\x7d\x7d" ['c', '{'] ['}'] := by
    obtain ⟨a, z, h⟩ := counted.mp (by decide +kernel)
    obtain rfl := h.unique ['c', '{'] ['}'] (by decide +kernel)
    exact ⟨by decide +kernel, h.unique⟩
  have two : FirstWildcard "\x7b\x7d_\x7b\x7d" [] ['_', '{', '}'] := ⟨by decide +kernel, by simp⟩
  have without : ∀ a z, "sky.png".toList ≠ a ++ '{' :: '}' :: z :=
    (wildcards_eq_zero_iff _).mp (by decide +kernel)
  have found : discover host "c\x7b\x7b\x7d\x7d" = some faces :=
    ((single _ _ one).some_iff faces).mpr
      ⟨conventions.take 2, _, conventions.drop 3, rfl, by decide +kernel, by decide +kernel,
        by decide +kernel⟩
  refine ⟨one, found, (single _ _ one).distinct _ found, two, ?_, ?_, without, ?_⟩
  · rw [(first _ _ two).fill_eq]
    decide +kernel
  · refine (first _ _ two).none_iff.mpr ?_
    decide +kernel
  · rw [(none without).2]
    rfl

end ShaderChannels.CubeMap
