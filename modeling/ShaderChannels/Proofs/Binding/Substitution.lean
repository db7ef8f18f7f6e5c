import Mathlib.Data.List.Find
import ShaderChannels.Proofs.Binding.Mirror

/-!
# Faces of anchored patterns

The name of a face is put into a pattern as it was written, and only then is the path anchored.  That
is the same as to anchor the pattern first and to put the name into the outcome, unless the wildcard
stands where a reference to a variable is open: then the letters of the name go into the name of the
variable.

* `CubeMap.anchor_fill` — the two agree where no reference is open.
* `CubeMap.anchor_fill_ne` — wherever a reference is open, there are surroundings in which the two
  differ.
* `CubeMap.discover_onDisk` — where they agree, discovery looks at the faces of the anchored pattern.
* `CubeMap.anchored_faces` — what is true of all patterns with one wildcard.
-/

namespace ShaderChannels.CubeMap

open Template

variable {env : Environment} {r : PathResolver} {p q name : String} {a z : List Char}

/-! ## Names and wildcards -/

/-- A name of a face has a character, and each may stand in the name of a variable. -/
structure Plain (name : List Char) : Prop where
  ne_nil : name ≠ []
  all : ∀ c ∈ name, isName c

theorem plain_names : ∀ names ∈ conventions, ∀ name ∈ names.toList, Plain name.toList := by
  have all : ∀ names ∈ conventions, ∀ name ∈ names.toList,
      name.toList ≠ [] ∧ name.toList.all isName := by
    decide +kernel
  intro names hn name h
  obtain ⟨ne, plain⟩ := all names hn name h
  exact ⟨ne, List.all_eq_true.mp plain⟩

theorem Plain.not_mem {name : List Char} {c : Char} (h : Plain name) (hc : isName c = false) :
    c ∉ name :=
  not_mem_of_isName h.all hc

theorem Plain.head?_append_ne {name : List Char} {c : Char} (h : Plain name) (hc : isName c = false)
    (r : List Char) : (name ++ r).head? ≠ some c := by
  obtain ⟨d, name, rfl⟩ := List.exists_cons_of_ne_nil h.ne_nil
  rintro ⟨⟩
  exact h.not_mem hc List.mem_cons_self

theorem Plain.startsInside {name : List Char} (h : Plain name) (r : List Char) :
    StartsInside (name ++ r) where
  ne_nil := List.append_ne_nil_of_left_ne_nil h.ne_nil r
  tilde := h.head?_append_ne rfl r
  slash := h.head?_append_ne rfl r

/-- A pattern with one wildcard is cut wherever there is a wildcard. -/
theorem Wildcard.of_single (single : hasSingleWildcard q) (eq : q.toList = a ++ '{' :: '}' :: z) :
    Wildcard q a z := by
  obtain ⟨a', z', h⟩ := (hasSingleWildcard_iff q).mp single
  refine ⟨eq, fun b y cut ↦ ?_⟩
  rw [h.unique b y cut, h.unique a z eq]

/-! ## Patterns that leave no reference open -/

theorem filled_wildcard {out : List Char} (h : Filled env (parts ('{' :: '}' :: z)) out) :
    ∃ zs, Filled env (parts z) zs ∧ out = '{' :: '}' :: zs := by
  rw [parts_char (by decide), parts_char (by decide)] at h
  obtain ⟨_, closing, rfl⟩ := filled_char_iff.mp h
  obtain ⟨zs, hzs, rfl⟩ := filled_char_iff.mp closing
  exact ⟨zs, hzs, rfl⟩

/-- The path of a face is anchored to that of the same face of the anchored pattern. -/
theorem anchor_fill (h : Wildcard p a z) (whole : Whole a) (anchored : r.anchor p = .ok q)
    (single : hasSingleWildcard q) (plain : Plain name.toList) :
    r.anchor (fill p name) = .ok (fill q name) := by
  obtain ⟨-, filled, -, hf, -⟩ := PathResolver.anchor_eq_ok_iff.mp anchored
  have cut := hf
  rw [h.eq, whole.parts_append] at cut
  obtain ⟨cs, _, hcs, after, rfl⟩ := filled_append_iff.mp cut
  obtain ⟨ds, hds, rfl⟩ := filled_wildcard after
  have hf' : Filled r.env (parts (fill p name).toList) (cs ++ (name.toList ++ ds)) := by
    rw [fill_eq h, facePath, String.toList_ofList, whole.parts_append]
    exact hcs.append (hds.plain (plain.not_mem rfl))
  have braces : StartsInside ('{' :: '}' :: ds) := ⟨List.cons_ne_nil _ _, by simp, by simp⟩
  obtain ⟨front, rfl, anchored'⟩ :=
    PathResolver.anchor_append anchored hf hf' braces (plain.startsInside ds)
  rw [anchored', fill_eq (Wildcard.of_single single String.toList_ofList), facePath]

/-! ## Patterns that leave a reference open -/

/-- `Apart cs ds`: no name of a face in the place of a wildcard of `cs` gives `ds`, and neither of
the two starts with a tilde. -/
structure Apart (cs ds : List Char) : Prop where
  left : cs.head? ≠ some '~'
  right : ds.head? ≠ some '~'
  ne : ∃ a z, cs = a ++ '{' :: '}' :: z ∧ ∀ name, Plain name → ds ≠ a ++ (name ++ z)

/-- A name without braces goes on with the name of a face. -/
theorem apart_name {name var cs ds : List Char} (all : ∀ c ∈ var, isName c) (plain : Plain name)
    (h : Filled mirror (parts ('$' :: var ++ '{' :: '}' :: z)) cs)
    (h' : Filled mirror (parts ('$' :: var ++ (name ++ z))) ds) : Apart cs ds := by
  obtain ⟨more, z, rfl, hmore, stop⟩ : ∃ more z', z = more ++ z' ∧ (∀ c ∈ more, isName c) ∧
      ∀ c ∈ z'.head?, isName c = false := by
    refine ⟨_, _, z.takeWhile_append_dropWhile.symm, fun c hc ↦ List.mem_takeWhile_imp hc, ?_⟩
    exact fun c hc ↦ eq_false_of_head?_dropWhile hc
  have longer : '$' :: var ++ (name ++ (more ++ z)) = '$' :: (var ++ name ++ more ++ z) := by
    simp
  have ne : var ++ name ++ more ≠ [] := by
    simp [plain.ne_nil]
  have named : ∀ c ∈ var ++ name ++ more, isName c := by
    simp only [List.forall_mem_append]
    exact ⟨⟨all, plain.all⟩, hmore⟩
  rw [longer, parts_bare ne named stop] at h'
  obtain ⟨zs, hzs, rfl⟩ := filled_mirror_iff.mp h'
  rw [value_eq_of_plain named]
  have hmore' : '$' ∉ more := not_mem_of_isName hmore rfl
  rcases eq_or_ne var [] with rfl | ne'
  · -- There is no name yet, and a dollar sign is not a slash.
    rw [List.cons_append, List.nil_append, parts_dollar (by simp; rfl) (by simp)] at h
    obtain ⟨_, after, rfl⟩ := filled_char_iff.mp h
    obtain ⟨_, -, rfl⟩ := filled_wildcard after
    exact ⟨by simp, by simp, ['$'], _, rfl, fun _ _ ↦ by simp⟩
  · -- The name of the face is lost in the longer name.
    rw [List.cons_append, parts_bare ne' all (by simp; rfl)] at h
    obtain ⟨_, after, rfl⟩ := filled_mirror_iff.mp h
    obtain ⟨_, rest, rfl⟩ := filled_wildcard after
    cases rest.unique (hzs.plain hmore')
    rw [value_eq_of_plain all]
    refine ⟨by simp, by simp, ['/', '/'], _, rfl, fun name plain same ↦ ?_⟩
    have lengths := congrArg List.length same
    have pos := List.length_pos_of_ne_nil plain.ne_nil
    simp only [List.length_append] at lengths
    omega

/-- A brace that is not closed takes in the wildcard and the name of a face. -/
theorem apart_brace {name var cs ds : List Char} (free : '}' ∉ var) (plain : Plain name)
    (h : Filled mirror (parts ('$' :: '{' :: var ++ '{' :: '}' :: z)) cs)
    (h' : Filled mirror (parts ('$' :: '{' :: var ++ (name ++ z))) ds) : Apart cs ds := by
  have shorter : '$' :: '{' :: var ++ '{' :: '}' :: z = '$' :: '{' :: (var ++ ['{'] ++ '}' :: z) := by
    simp
  have opens : value (var ++ ['{']) = ['/', '{', '}'] := if_pos List.getLast?_concat
  rw [shorter, parts_braced (by simp) (by simp [free])] at h
  obtain ⟨zs, -, rfl⟩ := filled_mirror_iff.mp h
  rw [opens]
  have face : '}' ∉ name := plain.not_mem rfl
  match read : splitBrace? z with
  | none =>
    have none : '}' ∉ var ++ (name ++ z) := by
      simp [free, face, splitBrace?_eq_none_iff.mp read]
    rw [List.cons_append, List.cons_append, parts_unclosed none] at h'
    exact nomatch h'
  | some (more, z) =>
    obtain ⟨hmore, rfl⟩ := splitBrace?_eq_some_iff.mp read
    have longer : '$' :: '{' :: var ++ (name ++ (more ++ '}' :: z)) =
        '$' :: '{' :: (var ++ name ++ more ++ '}' :: z) := by
      simp
    rw [longer, parts_braced (by simp [plain.ne_nil]) (by simp [free, face, hmore])] at h'
    obtain ⟨ds, -, rfl⟩ := filled_mirror_iff.mp h'
    obtain ⟨c, r, eq, outside⟩ := exists_value_eq (var ++ name ++ more)
    rw [eq]
    refine ⟨by simp, by simp, ['/'], zs, rfl, fun name plain same ↦ ?_⟩
    have tail : c :: (r ++ ds) = name ++ zs := (List.cons.inj same).2
    apply plain.head?_append_ne outside zs
    rw [← tail, List.head?_cons]

/-- Where a reference is open, a pattern and the path of a face come to texts that part there. -/
theorem exists_apart {cs ds : List Char} (h : Wildcard p a z) (opened : ¬ Whole a)
    (plain : Plain name.toList) (filled : Filled mirror (parts p.toList) cs)
    (filled' : Filled mirror (parts (fill p name).toList) ds) :
    ∃ front cs' ds', cs = front ++ cs' ∧ ds = front ++ ds' ∧ Apart cs' ds' := by
  obtain ⟨ps, rest, reads⟩ := exists_reads a
  rw [h.eq, reads.parts_append] at filled
  rw [fill_eq h, facePath, String.toList_ofList, reads.parts_append] at filled'
  obtain ⟨front, cs, before, after, rfl⟩ := filled_append_iff.mp filled
  obtain ⟨front', ds, before', after', rfl⟩ := filled_append_iff.mp filled'
  cases before.unique before'
  refine ⟨front, cs, ds, rfl, rfl, ?_⟩
  rcases reads.open_cases with rfl | ⟨var, all, rfl⟩ | ⟨var, free, rfl⟩
  · exact absurd ⟨ps, reads⟩ opened
  · exact apart_name all plain after after'
  · exact apart_brace free plain after after'

/-- Where a reference is open, there are surroundings in which no path of a face is anchored to that
of any face of the anchored pattern. -/
theorem anchor_fill_ne (h : Wildcard p a z) (opened : ¬ Whole a) (anchored : r.anchor p = .ok q) :
    ∃ r q, PathResolver.anchor r p = .ok q ∧ hasSingleWildcard q ∧
      ∀ name name', Plain name.toList → Plain name'.toList →
        r.anchor (fill p name) ≠ .ok (fill q name') := by
  obtain ⟨ne, _, _, filled₀, expanded₀, -⟩ := PathResolver.anchor_eq_ok_iff.mp anchored
  obtain ⟨cs, filled, count, -⟩ := mirrors_parts filled₀.unclosed_not_mem
  obtain ⟨out, expanded, kept⟩ := exists_expandHome_mirror filled₀ expanded₀ filled
  have single : hasSingleWildcard (String.ofList out) := by
    have one := (hasSingleWildcard_iff p).mpr ⟨a, z, h⟩
    rw [hasSingleWildcard, beq_iff_eq] at one ⊢
    rw [String.toList_ofList, kept, count, one]
  -- An empty base and `mirror`: whatever can be anchored at all can be anchored with these.
  refine ⟨⟨"", mirror⟩, String.ofList out, ?_, single, ?_⟩
  · refine PathResolver.anchor_eq_ok_iff.mpr ⟨ne, cs, out, filled, expanded, ?_⟩
    rw [Path.join_empty]
  · intro name name' plain plain' face
    obtain ⟨-, ds, out', filled', expanded', same⟩ := PathResolver.anchor_eq_ok_iff.mp face
    rw [Path.join_empty] at same
    obtain ⟨front, cs, ds, rfl, rfl, left, right, b, y, rfl, ne⟩ :=
      exists_apart h opened plain filled filled'
    obtain ⟨start, rfl, rfl⟩ := expandHome_append expanded expanded' left right
    have cut : (String.ofList (start ++ (b ++ '{' :: '}' :: y))).toList =
        start ++ b ++ '{' :: '}' :: y := by
      rw [String.toList_ofList, List.append_assoc]
    rw [fill_eq (Wildcard.of_single single cut), facePath, String.ofList_inj,
      List.append_assoc] at same
    exact ne _ plain' (List.append_cancel_left same).symm

/-! ## Discovery on disk -/

/-- If the paths of the faces are anchored to those of the anchored pattern, then discovery looks at
those files. -/
theorem discover_onDisk (faces : ∀ names ∈ conventions, ∀ name ∈ names.toList,
      r.anchor (fill p name) = .ok (fill q name)) (disk : Disk) (scheme : String) :
    discover (.onDisk disk r scheme) p =
      (conventions.find? fun names ↦ (names.map (fill q)).toList.all fun path ↦
        (disk path).isFile).map (Faces.map (fill p)) := by
  have same : ∀ names ∈ conventions,
      (names.map (fill p)).toList.all (Host.onDisk disk r scheme).fileExists =
        (names.map (fill q)).toList.all fun path ↦ (disk path).isFile := by
    intro names hn
    rw [Bool.eq_iff_iff, Faces.toList_map, Faces.toList_map, List.all_map, List.all_map,
      List.all_eq_true, List.all_eq_true]
    refine forall₂_congr fun name hname ↦ ?_
    rw [Function.comp_apply, Function.comp_apply,
      Host.fileExists_onDisk_of_ok (faces names hn name hname)]
  rw [discover, candidates, List.find?_map, ← List.find?_congr same]
  rfl

/-- A disk with the faces of a pattern, by whatever names, and nothing else. -/
def facesDisk (q : String) : Disk := fun path ↦
  if ∃ names ∈ conventions, ∃ name ∈ names.toList, path = fill q name then .file ⟨none, none⟩
  else .missing

theorem isFile_facesDisk_iff {path : String} :
    (facesDisk q path).isFile ↔
      ∃ names ∈ conventions, ∃ name ∈ names.toList, path = fill q name := by
  rw [facesDisk]
  split_ifs with face
  · exact iff_of_true rfl face
  · exact iff_of_false (nomatch ·) face

/-- Discovery finds nothing if no path of a face is anchored to one of the files. -/
theorem discover_facesDisk (h : Wildcard p a z)
    (apart : ∀ name name', Plain name.toList → Plain name'.toList →
      r.anchor (fill p name) ≠ .ok (fill q name')) (scheme : String) :
    discover (.onDisk (facesDisk q) r scheme) p = none := by
  rw [discover_eq_none_iff h]
  intro names hn complete
  have east : names.east ∈ names.toList := List.mem_cons_self
  obtain ⟨path, anchored, there⟩ := Host.fileExists_onDisk_iff.mp (complete _ east)
  obtain ⟨names', hn', name', hname', rfl⟩ := isFile_facesDisk_iff.mp there
  rw [← fill_eq h] at anchored
  exact apart _ _ (plain_names names hn _ east) (plain_names names' hn' _ hname') anchored

/-- **Faces of anchored patterns.**  If no reference is open where the wildcard stands, then the path
of each face is anchored to that face of the anchored pattern, so that discovery looks at the faces
of the anchored pattern.  If one is open, then there are surroundings and a disk in which all faces
of the anchored pattern exist and discovery finds none of them. -/
theorem anchored_faces (h : Wildcard p a z) :
    (Whole a → ∀ r q, PathResolver.anchor r p = .ok q → hasSingleWildcard q →
      (∀ names ∈ conventions, ∀ name ∈ names.toList, r.anchor (fill p name) = .ok (fill q name)) ∧
      ∀ disk scheme, discover (.onDisk disk r scheme) p =
        (conventions.find? fun names ↦ (names.map (fill q)).toList.all fun path ↦
          (disk path).isFile).map (Faces.map (fill p))) ∧
    (¬ Whole a → (∃ r q, PathResolver.anchor r p = .ok q) →
      ∃ r q disk, PathResolver.anchor r p = .ok q ∧ hasSingleWildcard q ∧
        (∀ names ∈ conventions, ∀ name ∈ names.toList,
          r.anchor (fill p name) ≠ .ok (fill q name) ∧ (disk (fill q name)).isFile) ∧
        ∀ scheme, discover (.onDisk disk r scheme) p = none) := by
  constructor
  · intro whole r q anchored single
    have faces : ∀ names ∈ conventions, ∀ name ∈ names.toList,
        r.anchor (fill p name) = .ok (fill q name) := fun names hn name hname ↦
      anchor_fill h whole anchored single (plain_names names hn name hname)
    exact ⟨faces, discover_onDisk faces⟩
  · rintro opened ⟨r₀, q₀, anchored₀⟩
    obtain ⟨r, q, anchored, single, apart⟩ := anchor_fill_ne h opened anchored₀
    refine ⟨r, q, facesDisk q, anchored, single, ?_, discover_facesDisk h apart⟩
    intro names hn name hname
    have plain := plain_names names hn name hname
    exact ⟨apart name name plain plain, isFile_facesDisk_iff.mpr ⟨names, hn, name, hname, rfl⟩⟩

/-- A variable in braces comes to its end before the wildcard, and the names of the faces join its
value. -/
theorem anchored_faces_braced :
    let p := "$\x7bSKY\x7d\x7b\x7d.png"
    let q := "docs/sky_\x7b\x7d.png"
    let r : PathResolver := ⟨"docs", .ofList [("SKY", "sky_")]⟩
    Wildcard p ['$', '{', 'S', 'K', 'Y', '}'] ".png".toList ∧ r.anchor p = .ok q ∧
      r.anchor (fill p "east") = .ok "docs/sky_east.png" := by
  intro p q r
  have cut : Wildcard p ['$', '{', 'S', 'K', 'Y', '}'] ".png".toList :=
    .of_single (by decide +kernel) (by decide +kernel)
  have whole : Whole ('$' :: '{' :: (['S', 'K', 'Y'] ++ '}' :: [])) :=
    ⟨_, .braced (by decide) (by decide) .nil⟩
  have anchored : r.anchor p = .ok q := by
    decide +kernel
  obtain ⟨faces, -⟩ := (anchored_faces cut).1 whole r q anchored (by decide +kernel)
  have east : r.anchor (fill p "east") = .ok (fill q "east") := by
    apply faces ⟨"east", "west", "up", "down", "north", "south"⟩ <;> decide +kernel
  refine ⟨cut, anchored, ?_⟩
  rw [east]
  decide +kernel

/-- A variable without braces goes on with the name of a face, and another variable is looked up,
which has no value.  All six files exist and none is found. -/
theorem not_anchored_faces_bare :
    let p := "$SKY\x7b\x7d.png"
    let q := "sky_\x7b\x7d.png"
    let r : PathResolver := ⟨"", .ofList [("SKY", "sky_")]⟩
    hasSingleWildcard p ∧ r.anchor p = .ok q ∧ hasSingleWildcard q ∧
      r.anchor (fill p "e") = .error (.unset "SKYe") ∧
      (∀ names ∈ conventions, ∀ name ∈ names.toList, (facesDisk q (fill q name)).isFile) ∧
      discover (.onDisk (facesDisk q) r Host.fileScheme) p = none := by
  intro p q r
  refine ⟨by decide +kernel, by decide +kernel, by decide +kernel, by decide +kernel, ?_, ?_⟩
  · exact fun names hn name hname ↦ isFile_facesDisk_iff.mpr ⟨names, hn, name, hname, rfl⟩
  · decide +kernel

end ShaderChannels.CubeMap
