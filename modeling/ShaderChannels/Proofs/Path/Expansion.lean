import Mathlib.Tactic.SplitIfs
import ShaderChannels.Proofs.Path.Reading
import ShaderChannels.Proofs.Success

/-!
# Expanding and anchoring paths

What a path is anchored to, said without errors: `Template.Filled env ps cs` says that the parts
`ps` are filled with `cs`, and `PathResolver.anchor_eq_ok_iff` puts the three steps of anchoring
together.  Each of the steps leaves the end of a path as it is: the parts of a template are filled
one after the other, and a tilde and the base are only matters of how the path starts.

* `Template.filled_append_iff` — parts are filled piece by piece.
* `expandHome_append`, `expandHome_append_of_ok` — two paths with the same front have the same front
  with the home directory in it.
* `Path.exists_join` — what stands in front of a path seen from a base.
* `PathResolver.anchor_append` — hence two paths that come to the same text up to a point are
  anchored to the same text up to there.
* `PathResolver.anchor_congr` — of the environment, only the variables that a path refers to and the
  home directory matter.
-/

namespace ShaderChannels

variable {env : Environment}

/-! ## Filling in variables -/

namespace Template

variable {ps qs : List Part} {c : Char} {name cs ds out : List Char}

/-- `Filled env ps cs`: with variables as in `env`, the parts `ps` come to the text `cs`. -/
inductive Filled (env : Environment) : List Part → List Char → Prop
  | nil : Filled env [] []
  | char {c : Char} {ps : List Part} {cs : List Char} :
      Filled env ps cs → Filled env (.char c :: ps) (c :: cs)
  | reference {name : List Char} {v : String} {ps : List Part} {cs : List Char} :
      env.lookup (String.ofList name) = some v → Filled env ps cs →
      Filled env (.reference name :: ps) (v.toList ++ cs)

/-- Filling in variables succeeds if every one of them has a value and no brace is left open. -/
theorem fill_eq_ok_iff (input : String) : fill env input ps = .ok cs ↔ Filled env ps cs := by
  constructor
  · intro h
    fun_induction fill env input ps generalizing cs with
    | case1 =>
      cases h
      exact .nil
    | case2 c ps ih =>
      obtain ⟨ds, rest, rfl⟩ := map_eq_ok_iff.mp h
      exact .char (ih rest)
    | case3 => exact nomatch h
    | case4 name ps v found ih =>
      obtain ⟨ds, rest, rfl⟩ := map_eq_ok_iff.mp h
      exact .reference found (ih rest)
    | case5 => exact nomatch h
  · intro h
    induction h with
    | nil => rfl
    | char _ ih =>
      rw [fill, ih]
      rfl
    | reference found _ ih =>
      rw [fill, found, ih]
      rfl

theorem filled_char_iff :
    Filled env (.char c :: ps) out ↔ ∃ cs, Filled env ps cs ∧ out = c :: cs := by
  constructor
  · rintro ⟨⟩
    exact ⟨_, ‹_›, rfl⟩
  · rintro ⟨cs, h, rfl⟩
    exact .char h

theorem filled_reference_iff :
    Filled env (.reference name :: ps) out ↔
      ∃ v cs, env.lookup (String.ofList name) = some v ∧ Filled env ps cs ∧ out = v.toList ++ cs := by
  constructor
  · rintro ⟨⟩
    exact ⟨_, _, ‹_›, ‹_›, rfl⟩
  · rintro ⟨v, cs, found, h, rfl⟩
    exact .reference found h

theorem Filled.append (h : Filled env ps cs) (h' : Filled env qs ds) :
    Filled env (ps ++ qs) (cs ++ ds) := by
  induction h with
  | nil => exact h'
  | char _ ih => exact .char ih
  | reference found _ ih =>
    rw [List.append_assoc]
    exact .reference found ih

/-- Parts are filled piece by piece. -/
theorem filled_append_iff :
    Filled env (ps ++ qs) out ↔ ∃ cs ds, Filled env ps cs ∧ Filled env qs ds ∧ out = cs ++ ds := by
  constructor
  · intro h
    induction ps generalizing out with
    | nil => exact ⟨[], out, .nil, h, rfl⟩
    | cons part ps ih =>
      cases h with
      | char h =>
        obtain ⟨cs, ds, left, right, rfl⟩ := ih h
        exact ⟨_, ds, .char left, right, rfl⟩
      | reference found h =>
        obtain ⟨cs, ds, left, right, rfl⟩ := ih h
        exact ⟨_, ds, .reference found left, right, (List.append_assoc ..).symm⟩
  · rintro ⟨cs, ds, h, h', rfl⟩
    exact h.append h'

/-- Text without variables comes to itself. -/
theorem Filled.plain (h : Filled env (parts ds) out) (plain : '$' ∉ cs) :
    Filled env (parts (cs ++ ds)) (cs ++ out) := by
  induction cs with
  | nil => exact h
  | cons c cs ih =>
    rw [List.mem_cons, not_or] at plain
    rw [List.cons_append, List.cons_append, parts_char (Ne.symm plain.1)]
    exact .char (ih plain.2)

/-- The parts come to one text only. -/
theorem Filled.unique (h : Filled env ps cs) (h' : Filled env ps ds) : cs = ds := by
  have filled := (fill_eq_ok_iff "").mpr h
  rw [(fill_eq_ok_iff "").mpr h'] at filled
  exact (Except.ok.inj filled).symm

/-- Nothing is filled in where a brace is never closed. -/
theorem Filled.unclosed_not_mem (h : Filled env ps cs) : .unclosed ∉ ps := by
  induction h with
  | nil => exact List.not_mem_nil
  | char _ ih | reference _ _ ih => simpa using ih

end Template

/-! ## The home directory -/

variable {front cs ds out out' : List Char}

theorem expandHome_of_ne (h : cs.head? ≠ some '~') : expandHome env cs = .ok cs := by
  rw [expandHome]
  rintro r rfl
  exact h rfl

/-- A tilde is the home directory where a slash comes next, or nothing. -/
theorem expandHome_tilde_iff :
    expandHome env ('~' :: cs) = .ok out ↔
      (cs = [] ∨ cs.head? = some '/') ∧ ∃ home, env.home = some home ∧ out = home.toList ++ cs := by
  rw [expandHome]
  simp only [List.isEmpty_iff]
  split_ifs with slash
  · cases env.home <;> simp [slash, eq_comm]
  · simp [slash]

/-- Two paths with the same front have the same front with the home directory in it. -/
theorem expandHome_append (h : expandHome env (front ++ cs) = .ok out)
    (h' : expandHome env (front ++ ds) = .ok out') (hc : cs.head? ≠ some '~')
    (hd : ds.head? ≠ some '~') : ∃ front', out = front' ++ cs ∧ out' = front' ++ ds := by
  cases front with
  | nil =>
    rw [List.nil_append, expandHome_of_ne hc] at h
    rw [List.nil_append, expandHome_of_ne hd] at h'
    cases h
    cases h'
    exact ⟨[], rfl, rfl⟩
  | cons c front =>
    rw [List.cons_append] at h h'
    by_cases tilde : c = '~'
    · subst tilde
      obtain ⟨-, home, known, rfl⟩ := expandHome_tilde_iff.mp h
      obtain ⟨-, home', known', rfl⟩ := expandHome_tilde_iff.mp h'
      cases known.symm.trans known'
      exact ⟨home.toList ++ front, (List.append_assoc ..).symm, (List.append_assoc ..).symm⟩
    · have plain (r : List Char) : (c :: r).head? ≠ some '~' := fun h ↦ tilde (Option.some.inj h)
      rw [expandHome_of_ne (plain _)] at h h'
      cases h
      cases h'
      exact ⟨c :: front, rfl, rfl⟩

/-- `StartsInside cs`: the text `cs` has a first character, and that is neither a tilde nor a
slash. -/
structure StartsInside (cs : List Char) : Prop where
  ne_nil : cs ≠ []
  tilde : cs.head? ≠ some '~'
  slash : cs.head? ≠ some '/'

/-- Whether a path can be expanded is told by what comes after a tilde at its front.  A text that
starts inside of a name does not stand there. -/
theorem expandHome_append_of_ok (h : expandHome env (front ++ cs) = .ok out) (hc : StartsInside cs)
    (hd : ds.head? ≠ some '~') : ∃ out', expandHome env (front ++ ds) = .ok out' := by
  match front with
  | [] => exact ⟨ds, expandHome_of_ne hd⟩
  | c :: front =>
    by_cases tilde : c = '~'
    · subst tilde
      obtain ⟨slash, home, known, -⟩ := expandHome_tilde_iff.mp h
      refine ⟨_, expandHome_tilde_iff.mpr ⟨?_, home, known, rfl⟩⟩
      cases front with
      | nil => exact absurd slash (not_or.mpr ⟨hc.ne_nil, hc.slash⟩)
      | cons d front => exact .inr (slash.resolve_left (List.cons_ne_nil _ _))
    · exact ⟨_, expandHome_of_ne fun h ↦ tilde (Option.some.inj h)⟩

/-! ## The base -/

namespace Path

theorem join_empty (p : String) : join "" p = p := by
  rw [join]
  split_ifs with h h'
  · rfl
  · exact String.empty_append
  · exact absurd rfl h'

/-- What stands in front of a path seen from a base depends on whether the path is absolute only. -/
theorem exists_join (base p : String) :
    ∃ front, ∀ q, isAbsolute q = isAbsolute p → join base q = front ++ q := by
  cases absolute : isAbsolute p with
  | true =>
    refine ⟨"", fun q hq ↦ ?_⟩
    rw [join, if_pos hq, String.empty_append]
  | false =>
    by_cases slash : base.toList.isEmpty || base.toList.getLast? == some '/'
    · refine ⟨base, fun q hq ↦ ?_⟩
      rw [join, if_neg (Bool.eq_false_iff.mp hq), if_pos slash]
    · refine ⟨base ++ "/", fun q hq ↦ ?_⟩
      rw [join, if_neg (Bool.eq_false_iff.mp hq), if_neg slash]

end Path

namespace PathResolver

variable {r : PathResolver} {p q : String}

theorem expand_eq_ok_iff :
    r.expand p = .ok q ↔
      ∃ filled out, Template.Filled r.env (Template.parts p.toList) filled ∧
        expandHome r.env filled = .ok out ∧ q = String.ofList out := by
  rw [expand, bind_eq_ok_iff]
  constructor
  · rintro ⟨filled, h, h'⟩
    obtain ⟨out, expanded, ⟨⟩⟩ := bind_eq_ok_iff.mp h'
    exact ⟨filled, out, (Template.fill_eq_ok_iff p).mp h, expanded, rfl⟩
  · rintro ⟨filled, out, h, expanded, rfl⟩
    exact ⟨filled, (Template.fill_eq_ok_iff p).mpr h, bind_eq_ok_iff.mpr ⟨out, expanded, rfl⟩⟩

/-- A path is anchored in three steps: its variables, its home directory and its base. -/
theorem anchor_eq_ok_iff :
    r.anchor p = .ok q ↔
      p ≠ "" ∧ ∃ filled out, Template.Filled r.env (Template.parts p.toList) filled ∧
        expandHome r.env filled = .ok out ∧ q = Path.join r.base (String.ofList out) := by
  rw [anchor]
  by_cases empty : p = ""
  · subst empty
    exact iff_of_false (fun h ↦ nomatch h) fun h ↦ h.1 rfl
  · rw [if_neg (String.isEmpty_iff.not.mpr empty)]
    constructor
    · intro anchored
      obtain ⟨_, found, ⟨⟩⟩ := bind_eq_ok_iff.mp anchored
      obtain ⟨filled, out, h, expanded, rfl⟩ := expand_eq_ok_iff.mp found
      exact ⟨empty, filled, out, h, expanded, rfl⟩
    · rintro ⟨-, filled, out, h, expanded, rfl⟩
      exact bind_eq_ok_iff.mpr ⟨_, expand_eq_ok_iff.mpr ⟨filled, out, h, expanded, rfl⟩, rfl⟩

/-- Two paths that come to the same text up to the inside of a name are anchored to the same text up
to there. -/
theorem anchor_append {p' : String} {front cs ds : List Char} (anchored : r.anchor p = .ok q)
    (h : Template.Filled r.env (Template.parts p.toList) (front ++ cs))
    (h' : Template.Filled r.env (Template.parts p'.toList) (front ++ ds))
    (hc : StartsInside cs) (hd : StartsInside ds) :
    ∃ front', q = String.ofList (front' ++ cs) ∧ r.anchor p' = .ok (String.ofList (front' ++ ds)) := by
  obtain ⟨-, _, out, filled, ho, rfl⟩ := anchor_eq_ok_iff.mp anchored
  cases filled.unique h
  obtain ⟨out', ho'⟩ := expandHome_append_of_ok ho hc hd.tilde
  obtain ⟨front', rfl, rfl⟩ := expandHome_append ho ho' hc.tilde hd.tilde
  obtain ⟨base, joined⟩ := Path.exists_join r.base (String.ofList (front' ++ cs))
  have absolute : Path.isAbsolute (String.ofList (front' ++ ds)) =
      Path.isAbsolute (String.ofList (front' ++ cs)) := by
    rw [Path.isAbsolute, Path.isAbsolute, String.toList_ofList, String.toList_ofList]
    cases front' with
    | nil =>
      rw [List.nil_append, List.nil_append, beq_false_of_ne hd.slash, beq_false_of_ne hc.slash]
    | cons => rfl
  have ne : p' ≠ "" := by
    rintro rfl
    have empty : Template.Filled r.env (Template.parts "".toList) [] := by
      rw [String.toList_empty, Template.parts]
      exact .nil
    exact hd.ne_nil (List.append_eq_nil_iff.mp (h'.unique empty)).2
  have seen (cs : List Char) : base ++ String.ofList cs = String.ofList (base.toList ++ cs) := by
    rw [String.ofList_append, String.ofList_toList]
  refine ⟨base.toList ++ front', ?_, anchor_eq_ok_iff.mpr ⟨ne, _, _, h', ho', ?_⟩⟩
  · rw [joined _ rfl, seen, List.append_assoc]
  · rw [joined _ absolute, seen, List.append_assoc]

end PathResolver

/-! ## Other environments -/

/-- `env.Agrees env' names`: the environments have the same home directory and the same values of
some variables. -/
structure Environment.Agrees (env env' : Environment) (names : List String) : Prop where
  home : env.home = env'.home
  lookup : ∀ name ∈ names, env.lookup name = env'.lookup name

section

variable {env' : Environment} {names : List String}

theorem Environment.Agrees.refl (env : Environment) (names : List String) :
    env.Agrees env names :=
  ⟨rfl, fun _ _ ↦ rfl⟩

end

end ShaderChannels
