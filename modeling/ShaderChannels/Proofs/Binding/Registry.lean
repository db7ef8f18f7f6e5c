import Mathlib.Data.List.Nodup
import Mathlib.Tactic.SplitIfs
import ShaderChannels.Binding.Check

/-!
# Reading checks

The checks that wait are read by id.  Of several checks registered for one id the last one is read;
taking out the check of an id leaves those of all other ids as they were.
-/

namespace ShaderChannels.Checks

variable {cs : Checks} {c : Check} {id id' : BindingId}

theorem toList_injective : Function.Injective toList := by
  rintro ⟨cs, _⟩ ⟨ds, _⟩ rfl
  rfl

/-! ## Registering -/

/-- Looking for an id from the front of a list. -/
theorem find?_id_cons (c : Check) (ds : List Check) (id : BindingId) :
    (c :: ds).find? (·.id == id) = if c.id = id then some c else ds.find? (·.id == id) := by
  by_cases h : c.id = id
  · rw [if_pos h, List.find?_cons_of_pos (by simp [h])]
  · rw [if_neg h, List.find?_cons_of_neg (by simp [h])]

/-- A check put in its place is the one that is found by its id. -/
theorem find?_insert (c : Check) (ds : List Check) (id : BindingId) :
    (insert c ds).find? (·.id == id) = if c.id = id then some c else ds.find? (·.id == id) := by
  fun_induction insert c ds with
  | case1 => exact find?_id_cons c [] id
  | case2 d ds lt => exact find?_id_cons c (d :: ds) id
  | case3 d ds nlt eq =>
    rw [find?_id_cons, find?_id_cons, ← eq]
    split_ifs <;> rfl
  | case4 d ds nlt ne ih =>
    rw [find?_id_cons, find?_id_cons, ih]
    split_ifs with hd hc
    · exact absurd (hc.trans hd.symm) ne
    · rfl
    · rfl
    · rfl

theorem get?_register (cs : Checks) (c : Check) (id : BindingId) :
    (cs.register c).get? id = if c.id = id then some c else cs.get? id :=
  find?_insert c cs.toList id

/-- Of the checks registered for an id the last one is read. -/
theorem get?_foldl_register (new : List Check) (cs : Checks) (id : BindingId) :
    (new.foldl register cs).get? id = (new.reverse.find? (·.id == id)).or (cs.get? id) := by
  induction new generalizing cs with
  | nil => rfl
  | cons c new ih =>
    rw [List.foldl_cons, ih, get?_register, List.reverse_cons, List.find?_append, Option.or_assoc]
    congr 1
    rw [find?_id_cons]
    split_ifs <;> rfl

/-! ## Ids -/

/-- A check is read by its own id. -/
theorem id_eq_of_get? (h : cs.get? id = some c) : c.id = id := by
  rw [get?] at h
  simpa using List.find?_some h

/-- The ids listed are those that a check can be read by. -/
theorem mem_ids_iff : id ∈ cs.ids ↔ ∃ c, cs.get? id = some c := by
  rw [ids, List.mem_map]
  constructor
  · rintro ⟨c, hc, rfl⟩
    rw [← Option.isSome_iff_exists, get?, List.find?_isSome]
    exact ⟨c, hc, beq_self_eq_true _⟩
  · rintro ⟨c, hc⟩
    exact ⟨c, List.mem_of_find?_eq_some hc, id_eq_of_get? hc⟩

/-- No id is listed twice. -/
theorem nodup_ids (cs : Checks) : cs.ids.Nodup := by
  rw [ids, List.nodup_iff_pairwise_ne, List.pairwise_map]
  refine cs.sorted.imp ?_
  intro c d lt eq
  rw [eq] at lt
  exact BindingId.lt_irrefl _ lt

/-- A check that waits is read by its id. -/
theorem get?_of_mem (h : c ∈ cs.toList) : cs.get? c.id = some c := by
  obtain ⟨c', hc'⟩ := mem_ids_iff.mp (List.mem_map_of_mem h : c.id ∈ cs.ids)
  have same : c' = c := List.inj_on_of_nodup_map cs.nodup_ids
    (List.mem_of_find?_eq_some hc') h (id_eq_of_get? hc')
  rw [hc', same]

/-! ## Taking out -/

/-- Only the id whose check was taken out is read differently. -/
theorem get?_take_of_ne (ne : id' ≠ id) : (cs.take id).2.get? id' = cs.get? id' := by
  rw [take, get?, get?, List.find?_filter]
  congr 1
  funext c
  by_cases h : c.id = id' <;> simp [h, ne]

/-- To take out one check and leave out those of other ids is to leave out those of all these ids. -/
theorem filter_take (cs : Checks) (id : BindingId) (ids : List BindingId) :
    (cs.take id).2.toList.filter (fun c ↦ c.id ∉ ids) =
      cs.toList.filter (fun c ↦ c.id ∉ id :: ids) := by
  rw [take, List.filter_filter]
  refine List.filter_congr fun c _ ↦ Bool.eq_iff_iff.mpr ?_
  simp only [Bool.and_eq_true, decide_eq_true_eq, bne_iff_ne, List.mem_cons, not_or, and_comm]

/-- The checks of an id are no more than the one that is read. -/
theorem filter_id_eq (cs : Checks) (id : BindingId) :
    cs.toList.filter (·.id == id) = (cs.get? id).toList := by
  obtain ⟨ds, sorted⟩ := cs
  change ds.filter (·.id == id) = (ds.find? (·.id == id)).toList
  induction sorted with
  | nil => rfl
  | @cons c ds before _ ih =>
    rw [find?_id_cons]
    split_ifs with h
    · rw [List.filter_cons_of_pos (by simp [h]), List.filter_eq_nil_iff.mpr ?_]
      · rfl
      · intro d hd eq
        have lt := before d hd
        rw [h, eq_of_beq eq] at lt
        exact BindingId.lt_irrefl _ lt
    · rw [List.filter_cons_of_neg (by simp [h]), ih]

/-- Taking out a check loses none. -/
theorem take_perm (cs : Checks) (id : BindingId) :
    ((cs.take id).2.toList ++ (cs.get? id).toList).Perm cs.toList := by
  rw [← filter_id_eq]
  exact List.perm_append_comm.trans (List.filter_append_perm (·.id == id) cs.toList)

theorem take_of_get?_eq_none (h : cs.get? id = none) : cs.take id = (none, cs) := by
  have all : cs.toList.filter (·.id != id) = cs.toList := by
    rw [List.filter_eq_self]
    intro c hc
    rw [get?, List.find?_eq_none] at h
    simpa using h c hc
  rw [take, h]
  congr 1
  cases cs
  congr 1

/-- Without a check nothing is completed, and the sink is offered nothing. -/
theorem complete_of_get?_eq_none {σ : Type} (h : cs.get? id = none) (width height : UInt32)
    (sink : Sink σ) (s : σ) : cs.complete id width height sink s = (none, cs, s) := by
  rw [complete, take_of_get?_eq_none h]

/-- A check that waits is completed with any size, and is taken out. -/
theorem complete_of_get? {σ : Type} (h : cs.get? id = some c) (width height : UInt32)
    (sink : Sink σ) (s : σ) :
    cs.complete id width height sink s =
      (some ⟨width, height, 1⟩, (cs.take id).2, (c.complete width height sink s).2) := by
  have taken : cs.take id = (some c, (cs.take id).2) := by rw [← h]; rfl
  rw [complete, taken]
  rfl

end ShaderChannels.Checks
