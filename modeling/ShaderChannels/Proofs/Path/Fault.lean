import ShaderChannels.Proofs.Path.Expansion

/-!
# What a path is expanded to

By the grammar of templates a path is a row of characters and references.  It comes to the
characters and the values of the references, one after the other; a value is taken as it is,
whatever characters are in it.  Then a tilde at the front of the whole text gives way to the home
directory, which is taken as it is, too.

* `Template.fill_eq` — a path comes to that text, unless one of its parts is at fault, and then the
  first such part tells why.
* `Template.Grammar.unclosed_mem_iff` — that a brace is never closed can be told without reading the
  path part by part.
* `PathResolver.expand_eq_ok_iff_of_home`, `PathResolver.expand_eq_error_iff_of_home` — when a path
  is expanded, and what is wrong with it otherwise.
* `PathResolver.expand_exact` — all of this against the grammar.
-/

namespace ShaderChannels

variable {env : Environment} {home : String}

/-! ## Parts at fault -/

namespace Template

/-- What a part comes to: a character is itself, and a reference the value of its variable. -/
def Part.text (env : Environment) : Part → List Char
  | .char c => [c]
  | .reference name => ((env.lookup (String.ofList name)).getD "").toList
  | .unclosed => []

/-- What is wrong with a part of `input`: a variable may have no value, and a brace that is never
closed has no meaning. -/
def Part.fault? (env : Environment) (input : String) : Part → Option PathError
  | .char _ => none
  | .reference name =>
    match env.lookup (String.ofList name) with
    | some _ => none
    | none => some (.unset (String.ofList name))
  | .unclosed => some (.unclosed input)

/-- The first part at fault tells why a template cannot be filled in; if there is none, all parts
come to their texts. -/
theorem fill_eq (env : Environment) (input : String) (ps : List Part) :
    fill env input ps =
      match ps.findSome? (Part.fault? env input) with
      | some e => .error e
      | none => .ok (ps.flatMap (Part.text env)) := by
  induction ps with
  | nil => rfl
  | cons part ps ih =>
    cases part with
    | char c =>
      simp only [fill, ih, List.findSome?_cons, Part.fault?, List.flatMap_cons, Part.text]
      cases ps.findSome? (Part.fault? env input) <;> rfl
    | reference name =>
      cases found : env.lookup (String.ofList name) with
      | none => simp only [fill, found, List.findSome?_cons, Part.fault?]
      | some v =>
        simp only [fill, found, ih, List.findSome?_cons, Part.fault?, List.flatMap_cons, Part.text]
        cases ps.findSome? (Part.fault? env input) <;> rfl
    | unclosed => rfl

variable {input : String} {ps : List Part} {cs r : List Char}

/-- No part is at fault exactly if no brace is left open and all variables have values. -/
theorem forall_fault?_eq_none_iff :
    (∀ part ∈ ps, part.fault? env input = none) ↔
      .unclosed ∉ ps ∧
        ∀ name, .reference name ∈ ps → ∃ v, env.lookup (String.ofList name) = some v := by
  constructor
  · intro sound
    refine ⟨fun mem ↦ absurd (sound _ mem) nofun, fun name mem ↦ ?_⟩
    have none := sound _ mem
    rw [Part.fault?] at none
    cases found : env.lookup (String.ofList name) with
    | none => simp [found] at none
    | some v => exact ⟨v, rfl⟩
  · rintro ⟨closed, known⟩ part mem
    cases part with
    | char c => rfl
    | reference name =>
      obtain ⟨v, found⟩ := known name mem
      simp only [Part.fault?, found]
    | unclosed => exact absurd mem closed

/-! ## Braces that are never closed -/

/-- Text without a closing brace at the end of a text is behind all closing braces. -/
theorem suffix_append_brace_iff {w : List Char} (free : '}' ∉ w) (x : List Char) :
    w <:+ x ++ '}' :: r ↔ w <:+ r := by
  have behind {s : List Char} (close : '}' ∈ s) : w ≠ s := fun eq ↦ free (eq ▸ close)
  induction x with
  | nil => rw [List.nil_append, List.suffix_cons_iff, or_iff_right (behind List.mem_cons_self)]
  | cons c x ih =>
    have close : '}' ∈ c :: (x ++ '}' :: r) := by simp
    rw [List.cons_append, List.suffix_cons_iff, or_iff_right (behind close)]
    exact ih

/-- Text at the end of a text is behind all characters that are not its first one. -/
theorem suffix_append_iff_of_not_mem {c : Char} {w x : List Char} (free : c ∉ x) :
    c :: w <:+ x ++ r ↔ c :: w <:+ r := by
  induction x with
  | nil => rfl
  | cons d x ih =>
    obtain ⟨ne, free⟩ := not_or.mp (List.mem_cons.not.mp free)
    rw [List.cons_append, List.suffix_cons_iff, ih free, or_iff_right]
    exact fun eq ↦ ne (List.cons.inj eq).1

/-- A brace is left open in reading a text exactly if no closing brace comes after it in the text;
it does not matter where the parts begin and end. -/
theorem Grammar.unclosed_mem_iff (h : Grammar cs ps) :
    .unclosed ∈ ps ↔ ∃ z, '$' :: '{' :: z <:+ cs ∧ '}' ∉ z := by
  induction h with
  | nil => simp
  | char ne _ ih =>
    simp only [List.mem_cons, reduceCtorEq, false_or, ih]
    refine exists_congr fun z ↦ and_congr_left fun free ↦ ?_
    rw [List.suffix_cons_iff, or_iff_right]
    exact fun eq ↦ ne (List.cons.inj eq).1.symm
  | @braced name r _ _ _ _ ih =>
    simp only [List.mem_cons, reduceCtorEq, false_or, ih]
    refine exists_congr fun z ↦ and_congr_left fun free ↦ ?_
    -- a brace that is left open stands behind the one that closes this reference
    exact (suffix_append_brace_iff (by simpa using free) ('$' :: '{' :: name)).symm
  | @bare name r _ ne all _ _ ih =>
    simp only [List.mem_cons, reduceCtorEq, false_or, ih]
    refine exists_congr fun z ↦ and_congr_left fun free ↦ ?_
    rw [List.suffix_cons_iff, suffix_append_iff_of_not_mem (not_mem_of_isName all rfl),
      or_iff_right]
    -- no brace comes next to this dollar sign, as a name starts there
    obtain ⟨c, name, rfl⟩ := List.exists_cons_of_ne_nil ne
    intro eq
    obtain rfl : '{' = c := (List.cons.inj (List.cons.inj eq).2).1
    exact not_mem_of_isName all rfl List.mem_cons_self
  | dollar _ brace _ ih =>
    simp only [List.mem_cons, reduceCtorEq, false_or, ih]
    refine exists_congr fun z ↦ and_congr_left fun free ↦ ?_
    rw [List.suffix_cons_iff, or_iff_right]
    -- a brace next to this dollar sign is closed at once
    intro eq
    exact free (List.mem_of_head? (brace z (List.cons.inj eq).2.symm))
  | unclosed free => exact iff_of_true List.mem_cons_self ⟨_, List.suffix_refl _, free⟩

theorem unclosed_not_mem_parts_iff :
    .unclosed ∉ parts cs ↔ ∀ z, '$' :: '{' :: z <:+ cs → '}' ∈ z := by
  rw [(grammar_parts cs).unclosed_mem_iff]
  simp only [not_exists, not_and, not_not]

end Template

/-! ## A known home directory -/

/-- A text that starts at the home directory of somebody else. -/
def OtherHome (cs : List Char) : Prop := ∃ s, cs = '~' :: s ∧ s ≠ [] ∧ s.head? ≠ some '/'

/-- A text with the home directory in the place of a tilde at its front. -/
def withHome (home : String) : List Char → List Char
  | '~' :: s => home.toList ++ s
  | cs => cs

theorem withHome_of_ne {cs : List Char} (h : cs.head? ≠ some '~') : withHome home cs = cs := by
  rw [withHome]
  rintro s rfl
  exact h rfl

theorem not_otherHome_of_ne {cs : List Char} (h : cs.head? ≠ some '~') : ¬ OtherHome cs := by
  rintro ⟨s, rfl, -⟩
  exact h rfl

theorem not_otherHome_iff {cs : List Char} :
    ¬ OtherHome cs ↔ ∀ s, cs = '~' :: s → s = [] ∨ s.head? = some '/' := by
  simp only [OtherHome, not_exists, not_and, not_not, or_iff_not_imp_left, ne_eq]

theorem otherHome_tilde_iff {s : List Char} :
    OtherHome ('~' :: s) ↔ ¬ (s = [] ∨ s.head? = some '/') := by
  simp [OtherHome]

theorem expandHome_tilde (known : env.home = some home) (s : List Char) :
    expandHome env ('~' :: s) =
      if s = [] ∨ s.head? = some '/' then .ok (home.toList ++ s)
      else .error (.otherHome (String.ofList ('~' :: s))) := by
  simp only [expandHome, known, List.isEmpty_iff]

/-- A text is expanded unless it starts at the home directory of somebody else. -/
theorem expandHome_eq (known : env.home = some home) (cs : List Char) :
    (¬ OtherHome cs ∧ expandHome env cs = .ok (withHome home cs)) ∨
      OtherHome cs ∧ expandHome env cs = .error (.otherHome (String.ofList cs)) := by
  by_cases tilde : cs.head? = some '~'
  · obtain ⟨s, rfl⟩ := List.head?_eq_some_iff.mp tilde
    rw [otherHome_tilde_iff, expandHome_tilde known]
    split_ifs with slash
    · exact .inl ⟨not_not.mpr slash, rfl⟩
    · exact .inr ⟨slash, rfl⟩
  · refine .inl ⟨not_otherHome_of_ne tilde, ?_⟩
    rw [expandHome_of_ne tilde, withHome_of_ne tilde]

/-! ## Expanding -/

namespace PathResolver

open Template

variable {r : PathResolver} {input out : String} {e : PathError}

/-- The text that a path comes to before the home directory is put in. -/
def filledText (r : PathResolver) (input : String) : List Char :=
  (parts input.toList).flatMap (Part.text r.env)

theorem expand_eq (r : PathResolver) (input : String) :
    r.expand input =
      match (parts input.toList).findSome? (Part.fault? r.env input) with
      | some e => .error e
      | none => String.ofList <$> expandHome r.env (r.filledText input) := by
  rw [expand, fill_eq]
  cases (parts input.toList).findSome? (Part.fault? r.env input) <;> rfl

/-- With a known home directory, a path is expanded if no part is at fault and its text does not
start at the home directory of somebody else. -/
theorem expand_eq_ok_iff_of_home (known : r.env.home = some home) :
    r.expand input = .ok out ↔
      (∀ part ∈ parts input.toList, part.fault? r.env input = none) ∧
        ¬ OtherHome (r.filledText input) ∧
        out = String.ofList (withHome home (r.filledText input)) := by
  rw [expand_eq, ← List.findSome?_eq_none_iff]
  cases (parts input.toList).findSome? (Part.fault? r.env input) with
  | some e => simp
  | none =>
    obtain ⟨own, eq⟩ | ⟨other, eq⟩ := expandHome_eq known (r.filledText input)
    · simp [eq, own, eq_comm]
    · simp [eq, other]

/-- The first part at fault is reported, and somebody else's home directory only if there is
none. -/
theorem expand_eq_error_iff_of_home (known : r.env.home = some home) :
    r.expand input = .error e ↔
      (parts input.toList).findSome? (Part.fault? r.env input) = some e ∨
        (∀ part ∈ parts input.toList, part.fault? r.env input = none) ∧
          OtherHome (r.filledText input) ∧ e = .otherHome (String.ofList (r.filledText input)) := by
  rw [expand_eq, ← List.findSome?_eq_none_iff]
  cases (parts input.toList).findSome? (Part.fault? r.env input) with
  | some e => simp
  | none =>
    obtain ⟨own, eq⟩ | ⟨other, eq⟩ := expandHome_eq known (r.filledText input)
    · simp [eq, own]
    · simp [eq, other, eq_comm]

/-- **Expanding is exact.**  Every path has one reading by the grammar of templates.  With a known
home directory it is expanded exactly if every opening brace behind a dollar sign is closed
somewhere, every variable that is referred to has a value, and a tilde at the front of the text that
the parts come to is followed by a slash or by nothing.  The result is that text, with the home
directory in the place of the tilde.  Otherwise the first part at fault is reported, and only if all
parts are sound, that the tilde is somebody else's. -/
theorem expand_exact {r : PathResolver} {home : String} (known : r.env.home = some home)
    (input : String) :
    ∃ ps, (∀ qs, Grammar input.toList qs ↔ qs = ps) ∧
      let text := ps.flatMap (Part.text r.env)
      ((∃ out, r.expand input = .ok out) ↔
        (∀ z, '$' :: '{' :: z <:+ input.toList → '}' ∈ z) ∧
        (∀ name, .reference name ∈ ps → ∃ v, r.env.lookup (String.ofList name) = some v) ∧
        ∀ s, text = '~' :: s → s = [] ∨ s.head? = some '/') ∧
      (∀ out, r.expand input = .ok out →
        (∀ s, text = '~' :: s → out = home ++ String.ofList s) ∧
        (text.head? ≠ some '~' → out = String.ofList text)) ∧
      ∀ e, r.expand input = .error e ↔
        (∃ before part after, ps = before ++ part :: after ∧
          part.fault? r.env input = some e ∧ ∀ q ∈ before, q.fault? r.env input = none) ∨
        (∀ q ∈ ps, q.fault? r.env input = none) ∧
          (∃ s, text = '~' :: s ∧ s ≠ [] ∧ s.head? ≠ some '/') ∧
          e = .otherHome (String.ofList text) := by
  refine ⟨parts input.toList, fun qs ↦ grammar_iff, ?_, fun out expanded ↦ ?_, fun e ↦ ?_⟩
  · simp only [expand_eq_ok_iff_of_home known, exists_and_left, exists_eq, and_true,
      forall_fault?_eq_none_iff, unclosed_not_mem_parts_iff, not_otherHome_iff, filledText,
      and_assoc]
  · obtain ⟨-, -, rfl⟩ := (expand_eq_ok_iff_of_home known).mp expanded
    constructor
    · intro s text
      rw [filledText, text, withHome, String.ofList_append, String.ofList_toList]
    · intro plain
      rw [filledText, withHome_of_ne plain]
  · rw [expand_eq_error_iff_of_home known, List.findSome?_eq_some_iff]
    rfl

/-- A tilde in front of a variable, with values that look like references and a home directory that
does, too; and a variable without a value in front of a brace that is never closed. -/
theorem expand_exact_verbatim :
    let env : Environment :=
      .ofList [("HOME", "/home/$A"), ("A", "/$\x7bB\x7d"), ("B C", "~")]
    let r : PathResolver := ⟨"/docs", env⟩
    r.env.home = some "/home/$A" ∧
      r.expand "~$A$$\x7b\x7d$\x7bB C\x7d" = .ok "/home/$A/$\x7bB\x7d$$\x7b\x7d~" ∧
      r.expand "$A-$U$\x7bV" = .error (.unset "U") := by
  intro env r
  have known : r.env.home = some "/home/$A" := by decide +kernel
  refine ⟨known, ?_, ?_⟩
  · obtain ⟨ps, grammar, succeeds, result, -⟩ := expand_exact known "~$A$$\x7b\x7d$\x7bB C\x7d"
    obtain rfl := (grammar _).mp (grammar_parts _)
    have text : (parts "~$A$$\x7b\x7d$\x7bB C\x7d".toList).flatMap (Part.text r.env) =
        '~' :: "/$\x7bB\x7d$$\x7b\x7d~".toList := by decide +kernel
    rw [text] at succeeds result
    have sound : ∀ part ∈ parts "~$A$$\x7b\x7d$\x7bB C\x7d".toList,
        part.fault? r.env "" = none := by decide +kernel
    obtain ⟨closed, values⟩ := forall_fault?_eq_none_iff.mp sound
    have slash : ∀ s, '~' :: "/$\x7bB\x7d$$\x7b\x7d~".toList = '~' :: s →
        s = [] ∨ s.head? = some '/' := by
      rintro _ ⟨⟩
      exact .inr (by decide)
    obtain ⟨out, expanded⟩ :=
      succeeds.mpr ⟨unclosed_not_mem_parts_iff.mp closed, values, slash⟩
    rw [expanded, (result out expanded).1 _ rfl]
    decide +kernel
  · obtain ⟨ps, grammar, -, -, fails⟩ := expand_exact known "$A-$U$\x7bV"
    obtain rfl := (grammar _).mp (grammar_parts _)
    exact (fails _).mpr (.inl ⟨[.reference ['A'], .char '-'], .reference ['U'], [.unclosed],
      by decide +kernel, by decide +kernel, by decide +kernel⟩)

end PathResolver

end ShaderChannels
