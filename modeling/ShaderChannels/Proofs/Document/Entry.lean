import Mathlib.Data.List.Nodup
import ShaderChannels.Document.Decode
import ShaderChannels.Proofs.Success

/-!
# Entries of a table

A document is decoded entry by entry, in the order in which the entries stand, into a structure that
starts out with defaults.  What comes of that does not depend on the order: a field is what the entry
of its key says, and its default if there is no such entry.

* `Says` — what a value says, for each kind of value that a field may have.
* `Field` — what a table says of a field.
* `Decode.written_of_foldlM` — from what one entry does to what all of them do.
-/

namespace ShaderChannels

open Toml (Value Table)

/-! ## Values -/

/-- `Spells w v`: the value `v` stands for the word `w`.  A word may also be written as the only key
of a table, and then there is nothing under it. -/
inductive Toml.Spells (w : String) : Value → Prop
  | word : Spells w (.string w)
  | table : Spells w (.table [(w, .table [])])
  | array : Spells w (.table [(w, .array [])])

namespace Toml

variable {v : Value} {w w' : String} {P Q : Table → Prop}

theorem Spells.unique (h : Spells w v) (h' : Spells w' v) : w = w' := by
  cases h <;> cases h' <;> rfl

/-- An array of tables that are like `P`. -/
def IsTables (P : Table → Prop) (v : Value) : Prop :=
  ∃ vs, v = .array vs ∧ ∀ x ∈ vs, ∃ es, x = .table es ∧ P es

/-- Changes the items of an array. -/
def Value.mapItems (f : Value → Value) : Value → Value
  | .array vs => .array (vs.map f)
  | v => v

theorem IsTables.imp (h : IsTables P v) (imp : ∀ es, P es → Q es) : IsTables Q v := by
  obtain ⟨vs, rfl, tables⟩ := h
  refine ⟨vs, rfl, fun x hx ↦ ?_⟩
  obtain ⟨es, rfl, hes⟩ := tables x hx
  exact ⟨es, rfl, imp es hes⟩

end Toml

namespace Says

variable {α : Type}

def string (v : Value) (s : String) : Prop := v = .string s

def boolean (v : Value) (b : Bool) : Prop := v = .boolean b

def index (v : Value) (n : Nat) : Prop := v = .integer n

def channel (v : Value) (c : Channel) : Prop := v = .integer c.toNat

def line (v : Value) (l : UInt32) : Prop := v = .integer l.toNat

/-- A word says what it is the word for. -/
def setting (ofWord : String → α) (v : Value) (a : α) : Prop := ∃ w, Toml.Spells w v ∧ a = ofWord w

def type (v : Value) (t : TextureType) : Prop := Toml.Spells t.word v

/-- What is said by a value that may be absent. -/
def some (R : Value → α → Prop) (v : Value) (o : Option α) : Prop := ∃ a, R v a ∧ o = .some a

/-- An array of tables says what its tables say, in order. -/
def tables (R : Table → α → Prop) (v : Value) (as : List α) : Prop :=
  ∃ vs, v = .array vs ∧ List.Forall₂ (fun v a ↦ ∃ es, v = .table es ∧ R es a) vs as

/-- `Once R v`: by `R`, the value `v` says one thing only. -/
def Once (R : Value → α → Prop) (v : Value) : Prop := ∀ a a', R v a → R v a' → a = a'

variable {v : Value}

theorem once_string : Once string v := by
  rintro s s' rfl h
  exact Value.string.inj h

theorem once_boolean : Once boolean v := by
  rintro b b' rfl h
  exact Value.boolean.inj h

theorem once_index : Once index v := by
  rintro n n' rfl h
  exact Int.ofNat.inj (Value.integer.inj h)

theorem once_channel : Once channel v := by
  rintro c c' rfl h
  exact UInt8.toNat_inj.mp (Int.ofNat.inj (Value.integer.inj h))

theorem once_line : Once line v := by
  rintro l l' rfl h
  exact UInt32.toNat_inj.mp (Int.ofNat.inj (Value.integer.inj h))

theorem once_setting (ofWord : String → α) : Once (setting ofWord) v := by
  rintro a a' ⟨w, spells, rfl⟩ ⟨w', spells', rfl⟩
  rw [spells.unique spells']

theorem once_type : Once type v := by
  intro t t' h h'
  have same : t.word = t'.word := Toml.Spells.unique h h'
  have read := congrArg TextureType.ofWord? same
  rw [TextureType.ofWord?_word, TextureType.ofWord?_word] at read
  exact Option.some.inj read

theorem Once.some {R : Value → α → Prop} (h : Once R v) : Once (some R) v := by
  rintro o o' ⟨a, ha, rfl⟩ ⟨a', ha', rfl⟩
  rw [h a a' ha ha']

theorem once_tables {R : Table → α → Prop}
    (h : Toml.IsTables (fun es ↦ ∀ a a', R es a → R es a' → a = a') v) : Once (tables R) v := by
  obtain ⟨vs, rfl, rows⟩ := h
  rintro as as' ⟨_, ⟨⟩, told⟩ ⟨_, ⟨⟩, told'⟩
  induction told generalizing as' with
  | nil =>
    cases told'
    rfl
  | cons head _ ih =>
    obtain _ | ⟨head', tail'⟩ := told'
    obtain ⟨⟨es, rfl, row⟩, rest⟩ := List.forall_mem_cons.mp rows
    obtain ⟨_, ⟨⟩, ha⟩ := head
    obtain ⟨_, ⟨⟩, ha'⟩ := head'
    rw [row _ _ ha ha', ih rest _ tail']

end Says

namespace Decode

variable {α : Type} {v : Value}

theorem string_eq_ok_iff {s : String} : string v = .ok s ↔ Says.string v s := by
  cases v <;> simp [string, Says.string]

theorem path_eq_ok_iff {s : String} : path v = .ok s ↔ Says.string v s := by
  cases v <;> simp [path, Says.string]

theorem boolean_eq_ok_iff {b : Bool} : boolean v = .ok b ↔ Says.boolean v b := by
  cases v <;> simp [boolean, Says.boolean]

theorem natural_eq_ok_iff {wanted : Wanted} {bound : Option Nat} {n : Nat} :
    natural wanted bound v = .ok n ↔ v = .integer n ∧ bound.all (n < ·) := by
  cases v with
  | integer m =>
    rw [natural]
    split_ifs with fits
    · obtain ⟨nonneg, below⟩ := fits
      rw [Except.ok.injEq, Value.integer.injEq]
      constructor
      · rintro rfl
        exact ⟨(Int.toNat_of_nonneg nonneg).symm, below⟩
      · rintro ⟨rfl, -⟩
        exact Int.toNat_natCast n
    · refine iff_of_false nofun ?_
      rintro ⟨⟨⟩, below⟩
      exact fits ⟨Int.natCast_nonneg n, below⟩
  | string | float | boolean | datetime | array | table => simp [natural]

theorem index_eq_ok_iff {n : Nat} : index v = .ok n ↔ Says.index v n := by
  rw [index, natural_eq_ok_iff, Option.all_none]
  exact and_iff_left rfl

theorem channel_eq_ok_iff {c : Channel} : channel v = .ok c ↔ Says.channel v c := by
  rw [channel, map_eq_ok_iff]
  simp only [natural_eq_ok_iff, Option.all_some, decide_eq_true_eq]
  constructor
  · rintro ⟨n, ⟨rfl, below⟩, rfl⟩
    rw [Says.channel, UInt8.toNat_ofNat_of_lt' below]
  · intro h
    exact ⟨c.toNat, ⟨h, c.toNat_lt⟩, UInt8.ofNat_toNat.symm⟩

theorem line_eq_ok_iff {l : UInt32} : line v = .ok l ↔ Says.line v l := by
  rw [line, map_eq_ok_iff]
  simp only [natural_eq_ok_iff, Option.all_some, decide_eq_true_eq]
  constructor
  · rintro ⟨n, ⟨rfl, below⟩, rfl⟩
    rw [Says.line, UInt32.toNat_ofNat_of_lt' below]
  · intro h
    exact ⟨l.toNat, ⟨h, l.toNat_lt⟩, UInt32.ofNat_toNat.symm⟩

theorem nothing_eq_ok_iff {u : Unit} : nothing v = .ok u ↔ v = .table [] ∨ v = .array [] := by
  rcases v with _ | _ | _ | _ | _ | (_ | _) | (_ | _) <;> simp [nothing]

theorem setting_eq_ok_iff {ofWord : String → Except Fault α} {a : α} :
    setting ofWord v = .ok a ↔ ∃ w, Toml.Spells w v ∧ ofWord w = .ok a := by
  constructor
  · intro h
    rcases v with w | _ | _ | _ | _ | _ | (_ | ⟨⟨w, body⟩, _ | _⟩)
    case string => exact ⟨w, .word, h⟩
    case table.cons.nil =>
      obtain ⟨a', known, h⟩ := bind_eq_ok_iff.mp h
      obtain ⟨_, empty, ⟨⟩⟩ := bind_eq_ok_iff.mp h
      rcases nothing_eq_ok_iff.mp empty with rfl | rfl
      · exact ⟨w, .table, known⟩
      · exact ⟨w, .array, known⟩
    all_goals exact nomatch h
  · rintro ⟨w, _ | _ | _, known⟩
    · exact known
    · rw [setting, known]
      rfl
    · rw [setting, known]
      rfl

theorem word_eq_ok_iff {ofWord : String → α} {a : α} :
    setting (.ok ∘ ofWord) v = .ok a ↔ Says.setting ofWord v a := by
  simp only [setting_eq_ok_iff, Function.comp_apply, Except.ok.injEq, Says.setting, eq_comm (a := a)]

theorem typeOfWord_eq_ok_iff {w : String} {t : TextureType} : typeOfWord w = .ok t ↔ w = t.word := by
  constructor
  · intro h
    rw [typeOfWord] at h
    split at h
    case h_1 t' known =>
      obtain rfl : t' = t := Except.ok.inj h
      unfold TextureType.ofWord? at known
      split at known
      · cases known
        rfl
      · cases known
        rfl
      · exact nomatch known
    case h_2 => exact nomatch h
  · rintro rfl
    rw [typeOfWord, TextureType.ofWord?_word]

theorem type_eq_ok_iff {t : TextureType} : setting typeOfWord v = .ok t ↔ Says.type v t := by
  simp only [setting_eq_ok_iff, typeOfWord_eq_ok_iff, Says.type, exists_eq_right]

theorem list_eq_ok_iff {item : Value → Except Fault α} {as : List α} :
    list item v = .ok as ↔
      ∃ vs, v = .array vs ∧ List.Forall₂ (fun v a ↦ item v = .ok a) vs as := by
  cases v with
  | array vs => simp [list, mapM_eq_ok_iff]
  | string | integer | float | boolean | datetime | table => simp [list]

section

variable {item : Value → Except Fault α} {R : Table → α → Prop} {P : Table → Prop}

/-- A list of what tables say. -/
theorem list_eq_ok_iff_tables {as : List α}
    (rows : Toml.IsTables (fun es ↦ ∀ a, item (.table es) = .ok a ↔ R es a) v) :
    list item v = .ok as ↔ Says.tables R v as := by
  rw [list_eq_ok_iff]
  refine exists_congr fun vs ↦ and_congr_right ?_
  rintro rfl
  obtain ⟨_, ⟨⟩, rows⟩ := rows
  refine forall₂_congr_left fun x hx a ↦ ?_
  obtain ⟨es, rfl, row⟩ := rows x hx
  simp [row]

theorem exists_list_iff (rows : Toml.IsTables (fun es ↦ (∃ a, item (.table es) = .ok a) ↔ P es) v) :
    (∃ as, list item v = .ok as) ↔ Toml.IsTables P v := by
  obtain ⟨vs, rfl, rows⟩ := rows
  rw [list, exists_mapM_eq_ok_iff]
  constructor
  · intro h
    refine ⟨vs, rfl, fun x hx ↦ ?_⟩
    obtain ⟨es, rfl, row⟩ := rows x hx
    exact ⟨es, rfl, row.mp (h _ hx)⟩
  · rintro ⟨_, ⟨⟩, h⟩ x hx
    obtain ⟨es, rfl, row⟩ := rows x hx
    obtain ⟨_, ⟨⟩, fits⟩ := h _ hx
    exact row.mpr fits

end

end Decode

/-! ## Fields -/

section

variable {α : Type} {es : Table} {k key : String} {v : Value} {R : Value → α → Prop} {a₀ a₁ a a' : α}

/-- `Field es key R a₀ a`: by the entries `es`, the field that belongs to `key` is `a`.  Here `R`
tells what a value says, and `a₀` is the default. -/
inductive Field (es : Table) (key : String) (R : Value → α → Prop) (a₀ : α) : α → Prop
  | /-- There is an entry, and that is what it says. -/
    given {v : Value} {a : α} : (key, v) ∈ es → R v a → Field es key R a₀ a
  | /-- There is no entry. -/
    absent : (∀ v, (key, v) ∉ es) → Field es key R a₀ a₀

namespace Field

theorem nil : Field [] key R a₀ a₀ := .absent nofun

theorem singleton_iff : Field [(k, v)] key R a₀ a ↔ if k = key then R v a else a = a₀ := by
  split_ifs with same
  · subst same
    constructor
    · rintro (⟨mem, told⟩ | none)
      · obtain rfl := (Prod.mk.inj (List.mem_singleton.mp mem)).2
        exact told
      · exact absurd (List.mem_singleton_self _) (none v)
    · intro told
      exact .given (List.mem_singleton_self _) told
  · constructor
    · rintro (⟨mem, -⟩ | -)
      · exact absurd (Prod.mk.inj (List.mem_singleton.mp mem)).1.symm same
      · rfl
    · rintro rfl
      refine .absent fun w mem ↦ ?_
      exact same (Prod.mk.inj (List.mem_singleton.mp mem)).1.symm

/-- What the first entry says, and then what the others say, of which none has its key. -/
theorem cons (fresh : k ∉ es.map Prod.fst) (h : Field [(k, v)] key R a₀ a₁)
    (h' : Field es key R a₁ a) : Field ((k, v) :: es) key R a₀ a := by
  rw [singleton_iff] at h
  split_ifs at h with same
  · subst same
    cases h' with
    | given mem => exact absurd (List.mem_map_of_mem mem) fresh
    | absent => exact .given List.mem_cons_self h
  · subst h
    cases h' with
    | given mem told => exact .given (List.mem_cons_of_mem _ mem) told
    | absent none =>
      refine .absent fun w mem ↦ ?_
      rcases List.mem_cons.mp mem with eq | mem
      · exact same (Prod.mk.inj eq).1.symm
      · exact none w mem

/-- If no key is there twice, the entry of the key tells the field. -/
theorem told (distinct : (es.map Prod.fst).Nodup) (h : Field es key R a₀ a) (mem : (key, v) ∈ es) :
    R v a := by
  cases h with
  | @given w _ mem' told =>
    have same : (key, w) = (key, v) := List.inj_on_of_nodup_map distinct mem' mem rfl
    obtain rfl := (Prod.mk.inj same).2
    exact told
  | absent none => exact absurd mem (none v)

/-- If the value of the key says one thing only, so does the table. -/
theorem unique (distinct : (es.map Prod.fst).Nodup)
    (once : ∀ v, (key, v) ∈ es → Says.Once R v) (h : Field es key R a₀ a)
    (h' : Field es key R a₀ a') : a = a' := by
  cases h with
  | given mem told => exact once _ mem _ _ told (h'.told distinct mem)
  | absent none =>
    cases h' with
    | given mem _ => exact absurd mem (none _)
    | absent _ => rfl

end Field

end

namespace Decode

variable {σ : Type} {put : σ → String → Value → Except Fault σ} {es : Table} {s t : σ}

/-- What is true of each entry alone is true of all of them, if it can be put together from a first
entry and others with other keys. -/
theorem written_of_foldlM {W : σ → Table → σ → Prop} (nil : ∀ s, W s [] s)
    (cons : ∀ {s s' t k v es}, k ∉ es.map Prod.fst → W s [(k, v)] s' → W s' es t →
      W s ((k, v) :: es) t)
    (single : ∀ e ∈ es, ∀ s t, put s e.1 e.2 = .ok t → W s [e] t)
    (distinct : (es.map Prod.fst).Nodup)
    (h : es.foldlM (fun s e ↦ put s e.1 e.2) s = .ok t) : W s es t := by
  induction es generalizing s with
  | nil =>
    obtain rfl : s = t := Except.ok.inj h
    exact nil s
  | cons e es ih =>
    obtain ⟨s', first, rest⟩ := foldlM_cons_eq_ok_iff.mp h
    obtain ⟨fresh, distinct⟩ := List.nodup_cons.mp distinct
    obtain ⟨now, later⟩ := List.forall_mem_cons.mp single
    exact cons fresh (now s s' first) (ih later distinct rest)

theorem hasKey_iff {key : String} : hasKey key es ↔ key ∈ es.map Prod.fst := by
  simp [hasKey]

/-- A field without a default is looked for last. -/
theorem require_eq_ok_iff {key : String} {x : Except Fault σ} :
    (do
      let s ← x
      if hasKey key es then return s else throw (Fault.missing key)) = .ok t ↔
      x = .ok t ∧ key ∈ es.map Prod.fst := by
  rw [bind_eq_ok_iff, ← hasKey_iff]
  constructor
  · rintro ⟨s, hs, h⟩
    split_ifs at h with there
    · obtain rfl : s = t := Except.ok.inj h
      exact ⟨hs, there⟩
  · rintro ⟨h, there⟩
    exact ⟨t, h, if_pos there⟩

end Decode

end ShaderChannels
