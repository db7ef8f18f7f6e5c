import Mathlib.Data.List.Forall2

/-!
# Computations that succeed

What it takes for a computation that may fail to come to a result, for the ways in which smaller
computations are put together: one after the other, item by item along a list, and step by step
along a list with a state.
-/

namespace ShaderChannels

variable {ε α β σ : Type}

theorem map_eq_ok_iff {f : α → β} {x : Except ε α} {y : β} :
    f <$> x = .ok y ↔ ∃ a, x = .ok a ∧ y = f a := by
  cases x with
  | error e =>
    constructor
    · intro h
      exact nomatch h
    · rintro ⟨_, ⟨⟩, _⟩
  | ok a =>
    constructor
    · rintro ⟨⟩
      exact ⟨a, rfl, rfl⟩
    · rintro ⟨_, ⟨⟩, rfl⟩
      rfl

theorem bind_eq_ok_iff {f : α → Except ε β} {x : Except ε α} {y : β} :
    x >>= f = .ok y ↔ ∃ a, x = .ok a ∧ f a = .ok y := by
  cases x with
  | error e =>
    constructor
    · intro h
      exact nomatch h
    · rintro ⟨_, ⟨⟩, _⟩
  | ok a =>
    constructor
    · intro h
      exact ⟨a, rfl, h⟩
    · rintro ⟨_, ⟨⟩, h⟩
      exact h

theorem toOption_eq_some_iff {x : Except ε α} {a : α} : x.toOption = some a ↔ x = .ok a := by
  cases x <;> simp [Except.toOption]

/-- A computation comes to the one result that is like `P`, if what it comes to is like `P`, and it
comes to something whenever anything is. -/
theorem eq_ok_iff_of_unique {x : Except ε α} {P : α → Prop} {a : α}
    (sound : ∀ a, x = .ok a → P a) (complete : ∀ a, P a → ∃ a, x = .ok a)
    (unique : ∀ a a', P a → P a' → a = a') : x = .ok a ↔ P a := by
  refine ⟨sound a, fun h ↦ ?_⟩
  obtain ⟨a', h'⟩ := complete a h
  rw [h', unique a' a (sound a' h') h]

/-- What is done to a result does not decide whether there is one. -/
theorem exists_map_eq_ok_iff {f : α → β} {x : Except ε α} :
    (∃ b, f <$> x = .ok b) ↔ ∃ a, x = .ok a := by
  constructor
  · rintro ⟨b, h⟩
    obtain ⟨a, ha, -⟩ := map_eq_ok_iff.mp h
    exact ⟨a, ha⟩
  · rintro ⟨a, rfl⟩
    exact ⟨f a, rfl⟩

/-- The results along a list are those of its items. -/
theorem mapM_eq_ok_iff {f : α → Except ε β} {xs : List α} {ys : List β} :
    xs.mapM f = .ok ys ↔ List.Forall₂ (fun x y ↦ f x = .ok y) xs ys := by
  induction xs generalizing ys with
  | nil =>
    rw [List.forall₂_nil_left_iff, List.mapM_nil]
    exact ⟨fun h ↦ (Except.ok.inj h).symm, fun h ↦ congrArg Except.ok h.symm⟩
  | cons x xs ih =>
    rw [List.mapM_cons, bind_eq_ok_iff, List.forall₂_cons_left_iff]
    simp only [bind_eq_ok_iff, ih]
    constructor
    · rintro ⟨y, hy, ys, hys, ⟨⟩⟩
      exact ⟨y, ys, hy, hys, rfl⟩
    · rintro ⟨y, ys, hy, hys, rfl⟩
      exact ⟨y, hy, ys, hys, rfl⟩

theorem exists_mapM_eq_ok_iff {f : α → Except ε β} {xs : List α} :
    (∃ ys, xs.mapM f = .ok ys) ↔ ∀ x ∈ xs, ∃ y, f x = .ok y := by
  simp only [mapM_eq_ok_iff]
  induction xs with
  | nil => exact iff_of_true ⟨[], .nil⟩ nofun
  | cons x xs ih =>
    rw [List.forall_mem_cons, ← ih]
    constructor
    · rintro ⟨_, hy | ⟨hy, hys⟩⟩
      exact ⟨⟨_, hy⟩, ⟨_, hys⟩⟩
    · rintro ⟨⟨y, hy⟩, ⟨ys, hys⟩⟩
      exact ⟨y :: ys, .cons hy hys⟩

/-- The results along a list with an item in the middle. -/
theorem mapM_append_cons_eq_ok_iff {f : α → Except ε β} {x : α} {xs xs' : List α} {zs : List β} :
    (xs ++ x :: xs').mapM f = .ok zs ↔ ∃ ys y ys', xs.mapM f = .ok ys ∧ f x = .ok y ∧
      xs'.mapM f = .ok ys' ∧ zs = ys ++ y :: ys' := by
  rw [List.mapM_append, List.mapM_cons]
  simp only [bind_eq_ok_iff]
  constructor
  · rintro ⟨ys, hys, _, ⟨y, hy, ys', hys', ⟨⟩⟩, ⟨⟩⟩
    exact ⟨ys, y, ys', hys, hy, hys', rfl⟩
  · rintro ⟨ys, y, ys', hys, hy, hys', rfl⟩
    exact ⟨ys, hys, _, ⟨y, hy, ys', hys', rfl⟩, rfl⟩

/-- Lists correspond item by item in two ways if these are the same for the items of the first. -/
theorem forall₂_congr_left {R S : α → β → Prop} {xs : List α} {ys : List β}
    (h : ∀ x ∈ xs, ∀ y, R x y ↔ S x y) : List.Forall₂ R xs ys ↔ List.Forall₂ S xs ys := by
  constructor
  · intro hR
    refine ((List.forall₂_and_left xs ys).mpr ⟨h, hR⟩).imp ?_
    exact fun x y both ↦ (both.1 y).mp both.2
  · intro hS
    refine ((List.forall₂_and_left xs ys).mpr ⟨h, hS⟩).imp ?_
    exact fun x y both ↦ (both.1 y).mpr both.2

/-! ## Steps along a list -/

variable {step : σ → α → Except ε σ} {s t : σ} {x : α} {xs ys : List α}

theorem foldlM_cons_eq_ok_iff :
    (x :: xs).foldlM step s = .ok t ↔ ∃ s', step s x = .ok s' ∧ xs.foldlM step s' = .ok t := by
  rw [List.foldlM_cons, bind_eq_ok_iff]

theorem foldlM_append_eq_ok_iff :
    (xs ++ ys).foldlM step s = .ok t ↔
      ∃ s', xs.foldlM step s = .ok s' ∧ ys.foldlM step s' = .ok t := by
  rw [List.foldlM_append, bind_eq_ok_iff]

/-- If the state has no say in whether a step succeeds, then all steps succeed if each of them
does. -/
theorem exists_foldlM_eq_ok_iff {fits : α → Prop}
    (h : ∀ x ∈ xs, ∀ s, (∃ t, step s x = .ok t) ↔ fits x) :
    (∃ t, xs.foldlM step s = .ok t) ↔ ∀ x ∈ xs, fits x := by
  induction xs generalizing s with
  | nil => exact iff_of_true ⟨s, rfl⟩ nofun
  | cons x xs ih =>
    obtain ⟨now, later⟩ := List.forall_mem_cons.mp h
    simp only [foldlM_cons_eq_ok_iff, List.forall_mem_cons]
    constructor
    · rintro ⟨t, s', hs', rest⟩
      exact ⟨(now s).mp ⟨s', hs'⟩, (ih later).mp ⟨t, rest⟩⟩
    · rintro ⟨first, rest⟩
      obtain ⟨s', hs'⟩ := (now s).mpr first
      obtain ⟨t, ht⟩ := (ih (s := s') later).mpr rest
      exact ⟨t, s', hs', ht⟩

end ShaderChannels
