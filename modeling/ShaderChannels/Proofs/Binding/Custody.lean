import Mathlib.Data.List.ReduceOption
import ShaderChannels.Binding.Session
import ShaderChannels.Proofs.Binding.Registry

/-!
# Custody of checks

While images load, checks are looked up, taken out and completed in any order, and sinks accept
warnings or refuse them.  Nothing of this loses a check or completes one twice.

* `Completion` — a check that a step completes, and the size it is completed with.
* `Place` — a check waits, is held by the caller, or is completed; `Stands` says where it is.
* `perm_perform`, `perm_run` — what waits, what is held and what is completed are together the
  checks that there were before.
* `perform_sink`, `run_sink` — the sink has no say in it.
* `at_most_once_none_lost` — all of this for every resolution and every run.
-/

namespace ShaderChannels.Session

/-! ## Completions -/

/-- A check that is completed, with the size that is told of its image. -/
structure Completion where
  check : Check
  width : UInt32
  height : UInt32
deriving DecidableEq

namespace Completion

/-- The size of the channel. -/
def size (e : Completion) : ChannelSize := ⟨e.width, e.height, 1⟩

/-- The warning that is offered to the sink, if the size calls for one. -/
def report? (e : Completion) : Option Report :=
  (e.check.warning? e.width e.height).map (⟨.warning, ·⟩)

end Completion

/-- What a step completes: a check that waits, or one that is held. -/
def completion? (x : Session) : Step → Option Completion
  | .complete id w h => (x.pending.get? id).map (⟨·, w, h⟩)
  | .heldComplete i w h => (x.heldAt i).map (⟨·, w, h⟩)
  | _ => none

/-- What a step offers to the sink. -/
def offers (x : Session) : Step → List Report
  | .publish => x.resolution.reports
  | step => ((x.completion? step).bind Completion.report?).toList

/-- The binding that a step is about. -/
def target? (x : Session) : Step → Option BindingId
  | .get id | .take id | .warning id _ _ | .complete id _ _ => some id
  | .heldWarning i _ _ | .heldComplete i _ _ => (x.heldAt i).map (·.id)
  | .ids | .ops _ | .publish => none

variable {σ τ : Type} {x : Session} {id : BindingId} {step : Step}

/-! ## One step -/

theorem complete_eq (c : Check) (w h : UInt32) (sink : Sink σ) (s : σ) :
    c.complete w h sink s =
      (⟨w, h, 1⟩, (sink.offerAll s (Completion.report? ⟨c, w, h⟩).toList).2) := by
  rw [Check.complete, Completion.report?]
  cases c.warning? w h <;> rfl

theorem perform_complete (sink : Sink σ) (x : Session) (s : σ) (id : BindingId) (w h : UInt32) :
    x.perform sink s (.complete id w h) =
      (.size ((x.completion? (.complete id w h)).map Completion.size),
        { x with pending := (x.pending.take id).2 },
        (sink.offerAll s (x.offers (.complete id w h))).2) := by
  rw [perform, offers, completion?]
  · cases found : x.pending.get? id with
    | none => rw [Checks.complete_of_get?_eq_none found, Checks.take_of_get?_eq_none found]; rfl
    | some c => rw [Checks.complete_of_get? found, complete_eq]; rfl
  · exact nofun

/-- Nothing is given away from an empty place, or from a place that is not there. -/
theorem held_set_none {i : Nat} (h : x.heldAt i = none) : x.held.set i none = x.held := by
  refine List.ext_getElem? fun j ↦ ?_
  rw [List.getElem?_set]
  split_ifs with eq lt
  · subst eq
    rw [heldAt, List.getElem?_eq_getElem lt] at h
    rw [List.getElem?_eq_getElem lt]
    exact congrArg some h.symm
  · subst eq
    exact (List.getElem?_eq_none (Nat.le_of_not_lt lt)).symm
  · rfl

theorem perform_heldComplete (sink : Sink σ) (x : Session) (s : σ) (i : Nat) (w h : UInt32) :
    x.perform sink s (.heldComplete i w h) =
      (.size ((x.completion? (.heldComplete i w h)).map Completion.size),
        { x with held := x.held.set i none },
        (sink.offerAll s (x.offers (.heldComplete i w h))).2) := by
  rw [offers, completion?]
  · cases found : x.heldAt i with
    | none => rw [held_set_none found, perform, found]; rfl
    | some c => simp only [perform, found, complete_eq]; rfl
  · exact nofun

theorem perform_state (sink : Sink σ) (x : Session) (s : σ) (step : Step) :
    (x.perform sink s step).2.2 = (sink.offerAll s (x.offers step)).2 := by
  cases step with
  | complete => rw [perform_complete]
  | heldComplete => rw [perform_heldComplete]
  | publish | ids | ops | get | take | warning | heldWarning => rfl

/-- The sink has no say in what becomes of the checks. -/
theorem perform_sink (sink : Sink σ) (sink' : Sink τ) (x : Session) (s : σ) (t : τ)
    (step : Step) : (x.perform sink s step).2.1 = (x.perform sink' t step).2.1 := by
  cases step with
  | complete => rw [perform_complete, perform_complete]
  | heldComplete => rw [perform_heldComplete, perform_heldComplete]
  | publish | ids | ops | get | take | warning | heldWarning => rfl

/-- The sink has no say in the answer, unless it is asked how much it accepts. -/
theorem answer_sink (sink : Sink σ) (sink' : Sink τ) (x : Session) (s : σ) (t : τ)
    (h : step ≠ .publish) : (x.perform sink s step).1 = (x.perform sink' t step).1 := by
  cases step with
  | complete => rw [perform_complete, perform_complete]
  | heldComplete => rw [perform_heldComplete, perform_heldComplete]
  | publish => exact absurd rfl h
  | ids | ops | get | take | warning | heldWarning => rfl

/-- A size is the answer exactly to what completes a check. -/
theorem answer_size_iff (sink : Sink σ) (x : Session) (s : σ) (step : Step) (z : ChannelSize) :
    (x.perform sink s step).1 = .size (some z) ↔
      ∃ e, x.completion? step = some e ∧ z = e.size := by
  cases step with
  | complete => simp [perform_complete, @eq_comm _ z]
  | heldComplete => simp [perform_heldComplete, @eq_comm _ z]
  | publish | ids | ops | get | take | warning | heldWarning => simp [perform, completion?]

/-- A session is changed by taking a check out and by completing one, and by nothing else. -/
theorem perform_eq_self (sink : Sink σ) (s : σ) (untaken : ∀ id, step ≠ .take id)
    (h : x.completion? step = none) : (x.perform sink s step).2.1 = x := by
  cases step with
  | take id => exact absurd rfl (untaken id)
  | complete id w h' =>
    rw [completion?, Option.map_eq_none_iff] at h
    rw [perform_complete, Checks.take_of_get?_eq_none h]
  | heldComplete i w h' =>
    rw [completion?, Option.map_eq_none_iff] at h
    rw [perform, h]
  | publish | ids | ops | get | warning | heldWarning => rfl

/-! ## No check is lost -/

/-- Of what is held, at most one thing is given away and all else is kept. -/
theorem reduceOption_set_none {α : Type} (held : List (Option α)) (i : Nat) :
    ((held.set i none).reduceOption ++ held[i]?.join.toList).Perm held.reduceOption := by
  induction held generalizing i with
  | nil => rfl
  | cons d held ih =>
    cases i with
    | zero =>
      cases d with
      | none => exact .of_eq (List.append_nil _)
      | some c => exact List.perm_append_singleton c held.reduceOption
    | succ i =>
      cases d with
      | none => exact ih i
      | some d => exact (ih i).cons d

/-- What waits, what is held and what a step completes are together what waited and what was
held. -/
theorem perm_perform (sink : Sink σ) (x : Session) (s : σ) (step : Step) :
    ((x.perform sink s step).2.1.pending.toList ++ (x.perform sink s step).2.1.held.reduceOption ++
      ((x.completion? step).map (·.check)).toList).Perm
        (x.pending.toList ++ x.held.reduceOption) := by
  have taken (id : BindingId) :
      ((x.pending.take id).2.toList ++ (x.held.reduceOption ++ (x.pending.get? id).toList)).Perm
        (x.pending.toList ++ x.held.reduceOption) := by
    refine (List.perm_append_comm.append_left _).trans ?_
    rw [← List.append_assoc]
    exact (x.pending.take_perm id).append_right _
  cases step with
  | take id =>
    have held : (x.held ++ [x.pending.get? id]).reduceOption =
        x.held.reduceOption ++ (x.pending.get? id).toList := by
      rw [List.reduceOption_append, List.reduceOption_singleton]
    change ((x.pending.take id).2.toList ++ (x.held ++ [_]).reduceOption ++ []).Perm _
    rw [List.append_nil, held]
    exact taken id
  | complete id w h =>
    have found : (x.completion? (.complete id w h)).map (·.check) = x.pending.get? id := by
      rw [completion?, Option.map_map]
      exact congrFun Option.map_id_fun' _
    rw [perform_complete, found, List.append_assoc]
    exact taken id
  | heldComplete i w h =>
    have found : (x.completion? (.heldComplete i w h)).map (·.check) = x.heldAt i := by
      rw [completion?, Option.map_map]
      exact congrFun Option.map_id_fun' _
    rw [perform_heldComplete, found, List.append_assoc]
    exact (reduceOption_set_none x.held i).append_left _
  | publish | ids | ops | get | warning | heldWarning => exact .of_eq (List.append_nil _)

/-- No step makes a check wait. -/
theorem ids_perform_subset (sink : Sink σ) (x : Session) (s : σ) (step : Step) :
    (x.perform sink s step).2.1.pending.ids ⊆ x.pending.ids := by
  have taken (id : BindingId) : (x.pending.take id).2.ids ⊆ x.pending.ids :=
    List.map_subset _ (List.filter_subset_self _)
  cases step with
  | take id => exact taken id
  | complete id w h => rw [perform_complete]; exact taken id
  | heldComplete i w h => rw [perform_heldComplete]; exact List.Subset.refl _
  | publish | ids | ops | get | warning | heldWarning => exact List.Subset.refl _

/-! ## Other checks -/

/-- The check of a binding that a step is not about waits, or is held in its place, as before. -/
theorem perform_of_target_ne (sink : Sink σ) (s : σ) (h : x.target? step ≠ some id) :
    (x.perform sink s step).2.1.pending.get? id = x.pending.get? id ∧
      ∀ i c, c.id = id →
        ((x.perform sink s step).2.1.heldAt i = some c ↔ x.heldAt i = some c) := by
  cases step with
  | take id' =>
    have ne : id ≠ id' := fun eq ↦ h (congrArg some eq.symm)
    refine ⟨Checks.get?_take_of_ne ne, ?_⟩
    rintro i c rfl
    -- the place after all others is new, and has the check of another binding
    have new : x.pending.get? id' ≠ some c := fun eq ↦ ne (Checks.id_eq_of_get? eq)
    change (x.held ++ [x.pending.get? id'])[i]?.join = some c ↔ x.held[i]?.join = some c
    rw [List.getElem?_append]
    split_ifs with lt
    · rfl
    · rw [List.getElem?_eq_none (Nat.le_of_not_lt lt), List.getElem?_singleton]
      split_ifs
      · exact ⟨fun eq ↦ absurd eq new, nofun⟩
      · rfl
  | complete id' w h' =>
    have ne : id ≠ id' := fun eq ↦ h (congrArg some eq.symm)
    rw [perform_complete]
    exact ⟨Checks.get?_take_of_ne ne, fun _ _ _ ↦ Iff.rfl⟩
  | heldComplete j w h' =>
    rw [perform_heldComplete]
    refine ⟨rfl, ?_⟩
    rintro i c rfl
    change (x.held.set j none)[i]?.join = some c ↔ x.held[i]?.join = some c
    by_cases eq : j = i
    · subst eq
      have other : x.held[j]?.join ≠ some c := fun at_j ↦ h (congrArg (Option.map Check.id) at_j)
      have gone : (x.held.set j none)[j]?.join = none := by
        rw [List.getElem?_set_self']
        cases x.held[j]? <;> rfl
      rw [gone]
      exact ⟨nofun, fun at_j ↦ absurd at_j other⟩
    · rw [List.getElem?_set_ne eq]
  | publish | ids | ops | get | warning | heldWarning => exact ⟨rfl, fun _ _ _ ↦ Iff.rfl⟩

/-! ## Runs -/

/-- The steps of a run, each with the session that it is performed in. -/
def visits (sink : Sink σ) (x : Session) (s : σ) : List Step → List (Session × Step)
  | [] => []
  | step :: steps =>
    let (_, x', s') := x.perform sink s step
    (x, step) :: visits sink x' s' steps

/-- What a run completes, in order. -/
def completions (sink : Sink σ) (x : Session) (s : σ) (steps : List Step) : List Completion :=
  (x.visits sink s steps).filterMap fun v ↦ v.1.completion? v.2

/-- What a run offers to the sink, in order. -/
def offered (sink : Sink σ) (x : Session) (s : σ) (steps : List Step) : List Report :=
  (x.visits sink s steps).flatMap fun v ↦ v.1.offers v.2

/-- What a run offers to the sink while it completes checks of a binding. -/
def warnings (sink : Sink σ) (x : Session) (s : σ) (steps : List Step) (id : BindingId) :
    List Report :=
  (x.visits sink s steps).flatMap fun v ↦
    if (v.1.completion? v.2).any (·.check.id == id) then v.1.offers v.2 else []

theorem snd_run_cons (sink : Sink σ) (x : Session) (s : σ) (step : Step) (steps : List Step) :
    (x.run sink s (step :: steps)).2 =
      ((x.perform sink s step).2.1.run sink (x.perform sink s step).2.2 steps).2 := rfl

theorem visits_cons (sink : Sink σ) (x : Session) (s : σ) (step : Step) (steps : List Step) :
    x.visits sink s (step :: steps) = (x, step) ::
      (x.perform sink s step).2.1.visits sink (x.perform sink s step).2.2 steps := rfl

theorem run_append (sink : Sink σ) (x : Session) (s : σ) (steps more : List Step) :
    (x.run sink s (steps ++ more)).2 =
      ((x.run sink s steps).2.1.run sink (x.run sink s steps).2.2 more).2 := by
  induction steps generalizing x s with
  | nil => rfl
  | cons step steps ih => rw [List.cons_append, snd_run_cons, snd_run_cons, ih]

theorem visits_append (sink : Sink σ) (x : Session) (s : σ) (steps more : List Step) :
    x.visits sink s (steps ++ more) = x.visits sink s steps ++
      (x.run sink s steps).2.1.visits sink (x.run sink s steps).2.2 more := by
  induction steps generalizing x s with
  | nil => rfl
  | cons step steps ih =>
    rw [List.cons_append, visits_cons, visits_cons, snd_run_cons, ih, List.cons_append]

theorem run_sink (sink : Sink σ) (sink' : Sink τ) (x : Session) (s : σ) (t : τ)
    (steps : List Step) : (x.run sink s steps).2.1 = (x.run sink' t steps).2.1 := by
  induction steps generalizing x s t with
  | nil => rfl
  | cons step steps ih =>
    rw [snd_run_cons, snd_run_cons, perform_sink sink sink' x s t step]
    exact ih _ _ _

theorem visits_sink (sink : Sink σ) (sink' : Sink τ) (x : Session) (s : σ) (t : τ)
    (steps : List Step) : x.visits sink s steps = x.visits sink' t steps := by
  induction steps generalizing x s t with
  | nil => rfl
  | cons step steps ih =>
    rw [visits_cons, visits_cons, perform_sink sink sink' x s t step]
    exact congrArg _ (ih _ _ _)

theorem answers_sink (sink : Sink σ) (sink' : Sink τ) (x : Session) (s : σ) (t : τ)
    {steps : List Step} {n : Nat} (h : steps[n]? ≠ some .publish) :
    (x.run sink s steps).1[n]? = (x.run sink' t steps).1[n]? := by
  induction steps generalizing x s t n with
  | nil => rfl
  | cons step steps ih =>
    cases n with
    | zero =>
      have ne : step ≠ .publish := fun eq ↦ h (congrArg some eq)
      exact congrArg some (answer_sink sink sink' x s t ne)
    | succ n =>
      change ((x.perform sink s step).2.1.run sink _ steps).1[n]? =
        ((x.perform sink' t step).2.1.run sink' _ steps).1[n]?
      rw [perform_sink sink sink' x s t step]
      exact ih _ _ _ h

theorem offerAll_append (sink : Sink σ) (s : σ) (rs rs' : List Report) :
    (sink.offerAll s (rs ++ rs')).2 = (sink.offerAll (sink.offerAll s rs).2 rs').2 := by
  induction rs generalizing s with
  | nil => rfl
  | cons r rs ih => exact ih _

/-- The sink is offered one report after the other, each once, whether it accepts them or not. -/
theorem run_state (sink : Sink σ) (x : Session) (s : σ) (steps : List Step) :
    (x.run sink s steps).2.2 = (sink.offerAll s (x.offered sink s steps)).2 := by
  induction steps generalizing x s with
  | nil => rfl
  | cons step steps ih =>
    rw [snd_run_cons, ih, offered, offered, visits_cons, List.flatMap_cons, offerAll_append,
      ← perform_state]

theorem perm_run (sink : Sink σ) (x : Session) (s : σ) (steps : List Step) :
    ((x.run sink s steps).2.1.pending.toList ++ (x.run sink s steps).2.1.held.reduceOption ++
      (x.completions sink s steps).map (·.check)).Perm (x.pending.toList ++ x.held.reduceOption) := by
  induction steps generalizing x s with
  | nil => exact .of_eq (List.append_nil _)
  | cons step steps ih =>
    have first : (x.completions sink s (step :: steps)).map (·.check) =
        ((x.completion? step).map (·.check)).toList ++
          ((x.perform sink s step).2.1.completions sink (x.perform sink s step).2.2 steps).map
            (·.check) := by
      rw [completions, completions, visits_cons, List.filterMap_cons]
      cases x.completion? step <;> rfl
    rw [snd_run_cons, first]
    -- what the first step completes goes last, behind what is left for the other steps
    refine (List.perm_append_comm.append_left _).trans ?_
    rw [← List.append_assoc]
    exact ((ih _ _).append_right _).trans (perm_perform sink x s step)

theorem ids_run_subset (sink : Sink σ) (x : Session) (s : σ) (steps : List Step) :
    (x.run sink s steps).2.1.pending.ids ⊆ x.pending.ids := by
  induction steps generalizing x s with
  | nil => exact List.Subset.refl _
  | cons step steps ih =>
    rw [snd_run_cons]
    exact List.Subset.trans (ih _ _) (ids_perform_subset sink x s step)

/-! ## Places -/

/-- Where a check is. -/
inductive Place where
  /-- It waits. -/
  | pending
  /-- The caller has taken it out. -/
  | held
  /-- It is completed, at once or after it was taken out. -/
  | completed
deriving DecidableEq

/-- The order in which a check goes through the places. -/
def Place.rank : Place → Nat
  | .pending => 0
  | .held => 1
  | .completed => 2

/-- The checks in a place after a run. -/
def checksIn (sink : Sink σ) (x : Session) (s : σ) (steps : List Step) : Place → List Check
  | .pending => (x.run sink s steps).2.1.pending.toList
  | .held => (x.run sink s steps).2.1.held.reduceOption
  | .completed => (x.completions sink s steps).map (·.check)

/-- `Stands sink x s steps id p`: after the run the check of `id` is at `p`. -/
def Stands (sink : Sink σ) (x : Session) (s : σ) (steps : List Step) (id : BindingId)
    (p : Place) : Prop :=
  ∃ c ∈ x.checksIn sink s steps p, c.id = id

variable {r : Resolution} {sink : Sink σ} {s : σ} {steps : List Step} {p q : Place}

theorem perm_checksIn (sink : Sink σ) (r : Resolution) (s : σ) (steps : List Step) :
    ((ofResolution r).checksIn sink s steps .pending ++
      (ofResolution r).checksIn sink s steps .held ++
      (ofResolution r).checksIn sink s steps .completed).Perm r.checks.toList := by
  refine (perm_run sink (ofResolution r) s steps).trans (.of_eq ?_)
  exact List.append_nil _

/-- Over all places there is at most one check of a binding. -/
theorem countP_checksIn_le (sink : Sink σ) (r : Resolution) (s : σ) (steps : List Step)
    (id : BindingId) :
    ((ofResolution r).checksIn sink s steps .pending).countP (·.id == id) +
      ((ofResolution r).checksIn sink s steps .held).countP (·.id == id) +
      ((ofResolution r).checksIn sink s steps .completed).countP (·.id == id) ≤ 1 := by
  rw [← List.countP_append, ← List.countP_append, (perm_checksIn sink r s steps).countP_eq,
    List.countP_eq_length_filter, Checks.filter_id_eq]
  cases r.checks.get? id with
  | none => exact Nat.zero_le 1
  | some c => exact Nat.le_refl 1

theorem stands_iff {x : Session} :
    x.Stands sink s steps id p ↔ 0 < (x.checksIn sink s steps p).countP (·.id == id) := by
  simp [Stands, List.countP_pos_iff]

/-- The check of a binding is in one place only. -/
theorem Stands.unique (hp : (ofResolution r).Stands sink s steps id p)
    (hq : (ofResolution r).Stands sink s steps id q) : p = q := by
  have one := countP_checksIn_le sink r s steps id
  rw [stands_iff] at hp hq
  cases p <;> cases q <;> first | rfl | omega

/-- Exactly the bindings of the checks of a resolution stand somewhere. -/
theorem exists_stands_iff :
    (∃ p, (ofResolution r).Stands sink s steps id p) ↔ id ∈ r.checks.ids := by
  have same := perm_checksIn sink r s steps
  rw [Checks.ids, List.mem_map]
  constructor
  · rintro ⟨p, c, hc, rfl⟩
    refine ⟨c, same.mem_iff.mp ?_, rfl⟩
    rw [List.mem_append, List.mem_append]
    cases p with
    | pending => exact .inl (.inl hc)
    | held => exact .inl (.inr hc)
    | completed => exact .inr hc
  · rintro ⟨c, hc, rfl⟩
    rw [← same.mem_iff, List.mem_append, List.mem_append] at hc
    obtain (hc | hc) | hc := hc
    · exact ⟨.pending, c, hc, rfl⟩
    · exact ⟨.held, c, hc, rfl⟩
    · exact ⟨.completed, c, hc, rfl⟩

/-- A check never goes back. -/
theorem Stands.rank_le {more : List Step} (hp : (ofResolution r).Stands sink s steps id p)
    (hq : (ofResolution r).Stands sink s (steps ++ more) id q) : p.rank ≤ q.rank := by
  cases p with
  | pending => exact Nat.zero_le _
  | held =>
    cases q with
    | pending =>
      -- it would have waited all the time
      have before : (ofResolution r).Stands sink s steps id .pending := by
        obtain ⟨c, hc, rfl⟩ := hq
        rw [checksIn, run_append] at hc
        exact List.mem_map.mp (ids_run_subset sink _ _ more (List.mem_map_of_mem hc))
      exact nomatch hp.unique before
    | held => exact Nat.le_refl _
    | completed => exact Nat.le_succ _
  | completed =>
    have after : (ofResolution r).Stands sink s (steps ++ more) id .completed := by
      obtain ⟨c, hc, rfl⟩ := hp
      refine ⟨c, ?_, rfl⟩
      rw [checksIn, completions, visits_append, List.filterMap_append, List.map_append]
      exact List.mem_append_left _ hc
    exact Nat.le_of_eq (congrArg Place.rank (hq.unique after)).symm

/-- A check that waits is held once it is taken out. -/
theorem Stands.take {x : Session} (h : x.Stands sink s steps id .pending) :
    x.Stands sink s (steps ++ [.take id]) id .held := by
  obtain ⟨c, found⟩ := Checks.mem_ids_iff.mp (List.mem_map.mpr h)
  refine ⟨c, ?_, Checks.id_eq_of_get? found⟩
  rw [checksIn, run_append, snd_run_cons, run_nil, List.reduceOption_mem_iff]
  exact List.mem_append_right _ (List.mem_singleton.mpr found.symm)

theorem stands_completed {x : Session} {e : Completion}
    (h : (x.run sink s steps).2.1.completion? step = some e) :
    x.Stands sink s (steps ++ [step]) e.check.id .completed := by
  refine ⟨e.check, List.mem_map_of_mem ?_, rfl⟩
  rw [completions, visits_append, visits_cons, List.filterMap_append]
  exact List.mem_append_right _ (List.mem_filterMap.mpr ⟨_, List.mem_cons_self, h⟩)

theorem length_offers_le {e : Completion} (h : x.completion? step = some e) :
    (x.offers step).length ≤ 1 := by
  have one (o : Option Report) : o.toList.length ≤ 1 := by cases o <;> simp
  cases step with
  | complete | heldComplete => exact one _
  | publish | ids | ops | get | take | warning | heldWarning => exact nomatch h

theorem length_warnings_le (sink : Sink σ) (x : Session) (s : σ) (steps : List Step)
    (id : BindingId) :
    (x.warnings sink s steps id).length ≤
      (x.checksIn sink s steps .completed).countP (·.id == id) := by
  rw [warnings, checksIn, completions]
  induction x.visits sink s steps with
  | nil => exact Nat.le_refl _
  | cons v visits ih =>
    rw [List.flatMap_cons, List.length_append, List.filterMap_cons]
    cases found : v.1.completion? v.2 with
    | none => simpa using ih
    | some e =>
      have one := length_offers_le found
      rw [List.map_cons, List.countP_cons, Option.any_some]
      split_ifs
      · omega
      · simpa using ih

/-- **At most once, none lost.**  However checks are looked up, taken out and completed:

* what waits, what is held and what is completed are together the checks of the resolution; the
  check of each binding is in exactly one of these places, and never goes back;
* no binding is completed twice, or warned about twice by its completion;
* what waits is held once it is taken out, and what is completed, at once or after that, has its
  size for an answer; nothing else has, and nothing else changes anything;
* to take out or complete what does not wait gives nothing, offers nothing and changes no check;
* a step about one binding leaves the checks of all others in their places;
* whatever the sink accepts, the checks go the same way, the answers are the same, except to the
  question how much was accepted, and the same reports are offered, each once. -/
theorem at_most_once_none_lost (sink : Sink σ) (r : Resolution) (s : σ) (steps : List Step) :
    let x := ofResolution r
    let y := (x.run sink s steps).2.1
    (x.checksIn sink s steps .pending ++ x.checksIn sink s steps .held ++
      x.checksIn sink s steps .completed).Perm r.checks.toList ∧
    (∀ id ∈ r.checks.ids, ∃! p, x.Stands sink s steps id p) ∧
    (∀ id more p q, x.Stands sink s steps id p → x.Stands sink s (steps ++ more) id q →
      p.rank ≤ q.rank) ∧
    (∀ id, (x.checksIn sink s steps .completed).countP (·.id == id) ≤ 1 ∧
      (x.warnings sink s steps id).length ≤ 1) ∧
    (∀ id, x.Stands sink s steps id .pending → x.Stands sink s (steps ++ [.take id]) id .held) ∧
    (∀ step e, y.completion? step = some e →
      x.Stands sink s (steps ++ [step]) e.check.id .completed) ∧
    (∀ t step z, (y.perform sink t step).1 = .size (some z) ↔
      ∃ e, y.completion? step = some e ∧ z = e.size) ∧
    (∀ t step, (∀ id, step ≠ .take id) → y.completion? step = none →
      (y.perform sink t step).2.1 = y) ∧
    (∀ t id, ¬ x.Stands sink s steps id .pending →
      y.perform sink t (.take id) = (.check none, { y with held := y.held ++ [none] }, t) ∧
      ∀ w h, y.perform sink t (.complete id w h) = (.size none, y, t)) ∧
    (∀ t step id, y.target? step ≠ some id →
      (y.perform sink t step).2.1.pending.get? id = y.pending.get? id ∧
      ∀ i c, c.id = id → ((y.perform sink t step).2.1.heldAt i = some c ↔ y.heldAt i = some c)) ∧
    ∀ (τ : Type) (sink' : Sink τ) (t : τ),
      (x.run sink' t steps).2 = (y, (sink'.offerAll t (x.offered sink s steps)).2) ∧
      ∀ n : Nat, steps[n]? ≠ some .publish →
        (x.run sink' t steps).1[n]? = (x.run sink s steps).1[n]? := by
  intro x y
  refine ⟨perm_checksIn sink r s steps, ?_, fun id more p q hp hq ↦ hp.rank_le hq, ?_,
    fun id h ↦ h.take, fun step e h ↦ stands_completed h,
    fun t step z ↦ answer_size_iff sink y t step z,
    fun t step untaken h ↦ perform_eq_self sink t untaken h, ?_,
    fun t step id h ↦ perform_of_target_ne sink t h, ?_⟩
  · intro id hid
    obtain ⟨p, hp⟩ := exists_stands_iff.mpr hid
    exact ⟨p, hp, fun q hq ↦ hq.unique hp⟩
  · intro id
    have one : (x.checksIn sink s steps .completed).countP (·.id == id) ≤ 1 :=
      Nat.le_trans (Nat.le_add_left _ _) (countP_checksIn_le sink r s steps id)
    exact ⟨one, Nat.le_trans (length_warnings_le sink x s steps id) one⟩
  · intro t id absent
    have none : y.pending.get? id = none := by
      rw [Option.eq_none_iff_forall_ne_some]
      intro c found
      exact absent ⟨c, List.mem_of_find?_eq_some found, Checks.id_eq_of_get? found⟩
    constructor
    · rw [perform, Checks.take_of_get?_eq_none none]
    · intro w h
      rw [perform, Checks.complete_of_get?_eq_none none]
  · intro τ sink' t
    refine ⟨Prod.ext (run_sink sink' sink x t s steps) ?_,
      fun n h ↦ answers_sink sink' sink x t s h⟩
    -- what is offered is read off the sessions that the run goes through, whatever the sink
    rw [run_state, offered, visits_sink sink' sink x t s steps]
    rfl

/-- A check that was taken out and completed, with a warning that was refused, is in no other place,
and cannot be completed again. -/
theorem at_most_once_none_lost_refused :
    let c : Check := ⟨⟨0, 1⟩, "image.glsl", [3]⟩
    let r : Resolution := { buffers := [], reports := [], checks := Checks.empty.register c }
    let sink := Sink.gated fun _ ↦ false
    let steps : List Step := [.take ⟨0, 1⟩, .heldComplete 0 100 50]
    let y := ((ofResolution r).run sink (0, []) steps).2.1
    ((ofResolution r).run sink (0, []) steps).2.2 = (1, []) ∧
      (∀ p, (ofResolution r).Stands sink (0, []) steps ⟨0, 1⟩ p ↔ p = .completed) ∧
      y.perform sink (1, []) (.complete ⟨0, 1⟩ 100 50) = (.size none, y, (1, [])) := by
  intro c r sink steps y
  obtain ⟨-, place, -, -, -, -, -, -, absent, -, -⟩ := at_most_once_none_lost sink r (0, []) steps
  have there : (ofResolution r).Stands sink (0, []) steps ⟨0, 1⟩ .completed :=
    ⟨c, List.mem_cons_self, rfl⟩
  have only (p : Place) : (ofResolution r).Stands sink (0, []) steps ⟨0, 1⟩ p ↔ p = .completed :=
    ⟨fun h ↦ (place _ List.mem_cons_self).unique h there, fun h ↦ h ▸ there⟩
  exact ⟨by decide +kernel, only, (absent _ _ fun h ↦ nomatch (only _).mp h).2 100 50⟩

end ShaderChannels.Session
