import ShaderChannels.Proofs.Binding.Custody

/-!
# Images in any order

Images finish loading in any order, and a check is completed at once or is taken out and completed
later.  What comes of the check of one binding has nothing to do with when that happens, nor with the
checks of other bindings in between.

* `Performs` — the steps that complete some loads, in order, each in one of the two ways.
* `Performs.perm` — the checks that go out of the registry on the way are those of the loads.
* `Tracks`, `Performs.run_tracks` — at each step the checks still to be completed are as they were.
* `Performs.run_exact` — the answers, the registry and the reports after such a run.
* `loads_commute` — two runs that complete the same loads in two orders.
-/

namespace ShaderChannels.Session

/-! ## Loads -/

/-- The image of a binding is loaded, and has this size. -/
structure Load where
  id : BindingId
  width : UInt32
  height : UInt32
deriving DecidableEq

namespace Load

/-- The check of a load, with the size. -/
def completion? (checks : Checks) (l : Load) : Option Completion :=
  (checks.get? l.id).map (⟨·, l.width, l.height⟩)

/-- The size that is returned for a load: that of the image, if a check waits for it. -/
def size? (checks : Checks) (l : Load) : Option ChannelSize :=
  (l.completion? checks).map Completion.size

/-- The warning about a load, if a check waits for it and its size calls for one. -/
def warning? (checks : Checks) (l : Load) : Option Report :=
  (l.completion? checks).bind Completion.report?

end Load

/-- `Performs held steps loads`: while the checks of `held` are taken out, the steps complete `loads`
in this order, each in the registry or after its check was taken out, and nothing is taken out that
is not completed. -/
inductive Performs : List (Option BindingId) → List Step → List Load → Prop
  | /-- No check is held any more. -/
    done {held : List (Option BindingId)} : (∀ o ∈ held, o = none) → Performs held [] []
  | complete {held : List (Option BindingId)} {steps : List Step} {loads : List Load} (l : Load) :
      Performs held steps loads →
      Performs held (.complete l.id l.width l.height :: steps) (l :: loads)
  | take {held : List (Option BindingId)} {steps : List Step} {loads : List Load} (id : BindingId) :
      Performs (held ++ [some id]) steps loads → Performs held (.take id :: steps) loads
  | heldComplete {held : List (Option BindingId)} {steps : List Step} {loads : List Load} {i : Nat}
      (l : Load) :
      held[i]? = some (some l.id) → Performs (held.set i none) steps loads →
      Performs held (.heldComplete i l.width l.height :: steps) (l :: loads)

/-- The binding whose check a step takes out of the registry. -/
def Step.removes? : Step → Option BindingId
  | .take id | .complete id _ _ => some id
  | .ids | .ops _ | .get _ | .warning .. | .heldWarning .. | .heldComplete .. | .publish => none

/-- The bindings whose checks go out of the registry, in order. -/
def removed (steps : List Step) : List BindingId := steps.filterMap Step.removes?

/-- The sizes among answers, in order. -/
def sizes (answers : List Answer) : List (Option ChannelSize) :=
  answers.filterMap fun
    | .size z => some z
    | _ => none

variable {σ : Type} {x : Session} {id : BindingId} {held : List (Option BindingId)}
  {ids : List BindingId} {steps : List Step} {loads : List Load} {checks : Checks}

/-- What is completed is what was held before and what goes out of the registry on the way. -/
theorem Performs.perm (h : Performs held steps loads) :
    (held.reduceOption ++ removed steps).Perm (loads.map (·.id)) := by
  induction h with
  | @done held none =>
    have empty : held.reduceOption = [] := List.filterMap_eq_nil_iff.mpr none
    rw [empty]
    exact .nil
  | complete l _ ih => exact List.perm_middle.trans (ih.cons _)
  | take id _ ih =>
    rwa [List.reduceOption_append, List.reduceOption_singleton, List.append_assoc] at ih
  | @heldComplete held steps loads i l there _ ih =>
    have given := reduceOption_set_none held i
    rw [there] at given
    refine (given.symm.append_right _).trans ?_
    rw [List.append_assoc]
    exact List.perm_middle.trans (ih.cons _)

/-! ## Steps -/

/-- `Tracks checks held ids x`: what is held are the checks of `held`, and the checks of `ids` wait,
as they were in the beginning. -/
structure Tracks (checks : Checks) (held : List (Option BindingId)) (ids : List BindingId)
    (x : Session) : Prop where
  held_eq : x.held = held.map (·.bind checks.get?)
  waiting : ∀ id ∈ ids, x.pending.get? id = checks.get? id

namespace Tracks

theorem heldAt_eq {i : Nat} (h : Tracks checks held ids x) (there : held[i]? = some (some id)) :
    x.heldAt i = checks.get? id := by
  rw [heldAt, h.held_eq, List.getElem?_map, there]
  rfl

/-- Other checks than the one that is taken out still wait. -/
theorem waiting_take (h : Tracks checks held (id :: ids) x) (other : id ∉ ids) :
    ∀ id' ∈ ids, (x.pending.take id).2.get? id' = checks.get? id' := by
  intro id' mem
  rw [Checks.get?_take_of_ne (ne_of_mem_of_not_mem mem other)]
  exact h.waiting id' (List.mem_cons_of_mem _ mem)

end Tracks

/-- To complete a check that waits, on a sink that keeps what it is offered. -/
theorem complete_tracks {l : Load} (h : Tracks checks held ids x) (mem : l.id ∈ ids)
    (s : List Report) :
    x.perform .collecting s (.complete l.id l.width l.height) =
      (.size (l.size? checks), { x with pending := (x.pending.take l.id).2 },
        s ++ (l.warning? checks).toList) := by
  have found : x.completion? (.complete l.id l.width l.height) = l.completion? checks := by
    rw [completion?, h.waiting l.id mem, Load.completion?]
  have offered : x.offers (.complete l.id l.width l.height) = (l.warning? checks).toList := by
    change ((x.completion? _).bind _).toList = _
    rw [found, Load.warning?]
  rw [perform_complete, offered, found, Sink.offerAll_collecting]
  rfl

/-- To complete a check that is held, on a sink that keeps what it is offered. -/
theorem heldComplete_tracks {l : Load} {i : Nat} (h : Tracks checks held ids x)
    (there : held[i]? = some (some l.id)) (s : List Report) :
    x.perform .collecting s (.heldComplete i l.width l.height) =
      (.size (l.size? checks), { x with held := x.held.set i none },
        s ++ (l.warning? checks).toList) := by
  have found : x.completion? (.heldComplete i l.width l.height) = l.completion? checks := by
    rw [completion?, h.heldAt_eq there, Load.completion?]
  have offered : x.offers (.heldComplete i l.width l.height) = (l.warning? checks).toList := by
    change ((x.completion? _).bind _).toList = _
    rw [found, Load.warning?]
  rw [perform_heldComplete, offered, found, Sink.offerAll_collecting]
  rfl

theorem run_cons (sink : Sink σ) (x : Session) (s : σ) (step : Step) (steps : List Step) :
    x.run sink s (step :: steps) =
      let (answer, x', s') := x.perform sink s step
      let (answers, out) := x'.run sink s' steps
      (answer :: answers, out) := rfl

/-! ## Runs -/

/-- Along the steps that complete some loads, each load has the size and the warning that it has by
itself, and its check goes out of the registry. -/
theorem Performs.run_tracks (h : Performs held steps loads) (nodup : (removed steps).Nodup)
    {x : Session} (tracks : Tracks checks held (removed steps) x) (s : List Report) :
    let out := x.run .collecting s steps
    sizes out.1 = loads.map (·.size? checks) ∧
      out.2.1.pending.toList = x.pending.toList.filter (fun c ↦ c.id ∉ removed steps) ∧
      out.2.2 = s ++ loads.filterMap (·.warning? checks) := by
  -- the warning about the first load goes behind what was kept before, and in front of the others
  have warned (s : List Report) (l : Load) (loads : List Load) :
      s ++ (l.warning? checks).toList ++ loads.filterMap (·.warning? checks) =
        s ++ (l :: loads).filterMap (·.warning? checks) := by
    rw [List.append_assoc, List.filterMap_cons]
    cases l.warning? checks <;> rfl
  induction h generalizing x s with
  | done => exact ⟨rfl, by simp [removed], (List.append_nil s).symm⟩
  | @complete held steps loads l _ ih =>
    obtain ⟨other, nodup⟩ := List.nodup_cons.mp nodup
    have later : Tracks checks held (removed steps) { x with pending := (x.pending.take l.id).2 } :=
      ⟨tracks.held_eq, tracks.waiting_take other⟩
    obtain ⟨answers, left, reports⟩ := ih nodup later (s ++ (l.warning? checks).toList)
    rw [run_cons, complete_tracks tracks List.mem_cons_self]
    refine ⟨congrArg _ answers, ?_, reports.trans (warned s l loads)⟩
    exact left.trans (Checks.filter_take x.pending l.id (removed steps))
  | @take held steps loads id _ ih =>
    obtain ⟨other, nodup⟩ := List.nodup_cons.mp nodup
    have later : Tracks checks (held ++ [some id]) (removed steps)
        { x with pending := (x.pending.take id).2, held := x.held ++ [x.pending.get? id] } := by
      refine ⟨?_, tracks.waiting_take other⟩
      rw [List.map_append, ← tracks.held_eq, tracks.waiting id List.mem_cons_self]
      rfl
    obtain ⟨answers, left, reports⟩ := ih nodup later s
    exact ⟨answers, left.trans (Checks.filter_take x.pending id (removed steps)), reports⟩
  | @heldComplete held steps loads i l there _ ih =>
    have later : Tracks checks (held.set i none) (removed steps)
        { x with held := x.held.set i none } := by
      refine ⟨?_, tracks.waiting⟩
      rw [List.map_set, ← tracks.held_eq]
      rfl
    obtain ⟨answers, left, reports⟩ := ih nodup later (s ++ (l.warning? checks).toList)
    rw [run_cons, heldComplete_tracks tracks there]
    exact ⟨congrArg _ answers, left, reports.trans (warned s l loads)⟩

/-- After the steps that complete some loads of distinct bindings, each load has its size and its
warning, in order, and the checks of all other bindings wait. -/
theorem Performs.run_exact (h : Performs [] steps loads) (distinct : (loads.map (·.id)).Nodup)
    (r : Resolution) (s : List Report) :
    let out := (ofResolution r).run .collecting s steps
    sizes out.1 = loads.map (·.size? r.checks) ∧
      out.2.1.pending.toList = r.checks.toList.filter (fun c ↦ c.id ∉ loads.map (·.id)) ∧
      out.2.2 = s ++ loads.filterMap (·.warning? r.checks) := by
  have same : (removed steps).Perm (loads.map (·.id)) := h.perm
  obtain ⟨answers, left, reports⟩ :=
    h.run_tracks (same.nodup_iff.mpr distinct) (x := ofResolution r) ⟨rfl, fun _ _ ↦ rfl⟩ s
  refine ⟨answers, left.trans ?_, reports⟩
  exact List.filter_congr fun c _ ↦ by rw [decide_eq_decide, same.mem_iff]

/-- **Loads commute.**  Let the same loads of distinct bindings be completed in two orders, each at
once or after its check was taken out, on a sink that keeps what it is offered.  In both runs each
load is answered by the size that it has by itself, which is that of its image if a check waits for
it.  The same checks are left in the registry, those of all other bindings.  And each run reports the
warnings that its loads have by themselves, in its own order, so that one list of reports is a
rearrangement of the other. -/
theorem loads_commute (r : Resolution) (s : List Report) {steps steps' : List Step}
    {loads loads' : List Load} (h : Performs [] steps loads) (h' : Performs [] steps' loads')
    (distinct : (loads.map (·.id)).Nodup) (same : loads.Perm loads') :
    let x := (ofResolution r).run .collecting s steps
    let y := (ofResolution r).run .collecting s steps'
    (sizes x.1 = loads.map (·.size? r.checks) ∧ sizes y.1 = loads'.map (·.size? r.checks)) ∧
    (x.2.1.pending = y.2.1.pending ∧
      x.2.1.pending.toList = r.checks.toList.filter (fun c ↦ c.id ∉ loads.map (·.id))) ∧
    x.2.2 = s ++ loads.filterMap (·.warning? r.checks) ∧
    y.2.2 = s ++ loads'.filterMap (·.warning? r.checks) ∧ x.2.2.Perm y.2.2 := by
  intro x y
  have ids : (loads.map (·.id)).Perm (loads'.map (·.id)) := same.map _
  obtain ⟨answers, left, reports⟩ := h.run_exact distinct r s
  obtain ⟨answers', left', reports'⟩ := h'.run_exact (ids.nodup_iff.mp distinct) r s
  refine ⟨⟨answers, answers'⟩, ⟨?_, left⟩, reports, reports', ?_⟩
  · refine Checks.toList_injective (left.trans (Eq.trans ?_ left'.symm))
    exact List.filter_congr fun c _ ↦ by rw [decide_eq_decide, ids.mem_iff]
  · rw [reports, reports']
    exact (same.filterMap _).append_left s

/-- Two checks that wait, and a binding that has none.  In one run the first check is taken out and
completed in the end; in the other run it is completed at once, and the other two are taken out. -/
theorem loads_commute_taken :
    let c : Check := ⟨⟨0, 1⟩, "image.glsl", [3]⟩
    let d : Check := ⟨⟨0, 2⟩, "image.glsl", [5]⟩
    let r : Resolution :=
      { buffers := [], reports := [], checks := (Checks.empty.register c).register d }
    let steps : List Step :=
      [.take ⟨0, 1⟩, .complete ⟨0, 2⟩ 3 5, .complete ⟨7, 0⟩ 8 8, .heldComplete 0 100 50]
    let steps' : List Step :=
      [.complete ⟨0, 1⟩ 100 50, .take ⟨7, 0⟩, .take ⟨0, 2⟩, .heldComplete 1 3 5,
        .heldComplete 0 8 8]
    let x := (ofResolution r).run .collecting [] steps
    let y := (ofResolution r).run .collecting [] steps'
    sizes x.1 = [some ⟨3, 5, 1⟩, none, some ⟨100, 50, 1⟩] ∧
      sizes y.1 = [some ⟨100, 50, 1⟩, some ⟨3, 5, 1⟩, none] ∧
      x.2.1.pending = y.2.1.pending ∧
      x.2.2 =
        [⟨.warning, ⟨"image.glsl", [⟨5, Check.sizeWarning⟩]⟩⟩,
          ⟨.warning, ⟨"image.glsl", [⟨3, Check.sizeWarning⟩]⟩⟩] ∧
      x.2.2.Perm y.2.2 := by
  intro c d r steps steps' x y
  let l : Load := ⟨⟨0, 1⟩, 100, 50⟩
  let m : Load := ⟨⟨0, 2⟩, 3, 5⟩
  let n : Load := ⟨⟨7, 0⟩, 8, 8⟩
  have h : Performs [] steps [m, n, l] :=
    .take _ (.complete m (.complete n (.heldComplete l rfl (.done (by decide)))))
  have h' : Performs [] steps' [l, m, n] :=
    .complete l (.take _ (.take _ (.heldComplete m rfl (.heldComplete n rfl (.done (by decide))))))
  have distinct : ([m, n, l].map (·.id)).Nodup := by decide
  have same : [m, n, l].Perm [l, m, n] := by decide
  obtain ⟨⟨sizes, sizes'⟩, ⟨left, -⟩, reports, -, perm⟩ := loads_commute r [] h h' distinct same
  exact ⟨sizes.trans rfl, sizes'.trans rfl, left, reports.trans (by decide +kernel), perm⟩

end ShaderChannels.Session
