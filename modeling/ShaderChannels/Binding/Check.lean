import ShaderChannels.Binding.Op
import ShaderChannels.Report.Sink

/-!
# Size checks

Textures whose sides are not powers of two may not honour their settings, but the size of an image
is known only when it is loaded.  So each binding of an image leaves a check, to be completed with
the size.  There is at most one check for each binding; they are kept in order of their ids.
-/

namespace ShaderChannels

/-- The size a channel turns out to have. -/
structure ChannelSize where
  width : UInt32
  height : UInt32
  depth : UInt32
deriving DecidableEq, Inhabited

/-- What is left to check when the image of a binding is loaded. -/
structure Check where
  id : BindingId
  /-- The file a warning is about. -/
  file : String
  /-- Lines of the settings that may not work. -/
  lines : List UInt32
deriving DecidableEq, Inhabited

/-- Whether a number is a power of two. -/
def isPowerOfTwo (n : UInt32) : Bool := n != 0 && n.toNat == Nat.pow 2 n.toNat.log2

namespace Check

/-- The message about each line. -/
def sizeWarning : String := "Texture is not power of two, custom texture settings may not work."

/-- The warning that a size calls for: one message for each line, unless both sides are powers of
two or there are no lines. -/
def warning? (c : Check) (width height : UInt32) : Option Batch :=
  if c.lines.isEmpty || (isPowerOfTwo width && isPowerOfTwo height) then none
  else some ⟨c.file, c.lines.map (⟨·, sizeWarning⟩)⟩

/-- Completes a check: the size of the channel, and the sink after it was offered the warning, if
there is one.  It makes no difference whether the sink accepts. -/
def complete {σ : Type} (c : Check) (width height : UInt32) (sink : Sink σ) (s : σ) :
    ChannelSize × σ :=
  (⟨width, height, 1⟩,
    match c.warning? width height with
    | some batch => (sink.offer s ⟨.warning, batch⟩).2
    | none => s)

end Check

/-- Checks that are not completed yet, by increasing id. -/
structure Checks where
  toList : List Check
  sorted : toList.Pairwise (·.id < ·.id)
deriving DecidableEq

namespace Checks

/-- No checks. -/
def empty : Checks := ⟨[], .nil⟩

instance instInhabited : Inhabited Checks := ⟨empty⟩

/-- Puts a check in its place; one with the same id gives way. -/
def insert (c : Check) : List Check → List Check
  | [] => [c]
  | d :: ds =>
    if c.id < d.id then c :: d :: ds
    else if c.id = d.id then c :: ds
    else d :: insert c ds

/-- What is in the list afterwards was put in or was there before. -/
theorem eq_or_mem_of_mem_insert {c d : Check} {ds : List Check} (h : d ∈ insert c ds) :
    d = c ∨ d ∈ ds := by
  fun_induction insert c ds with
  | case1 => exact .inl (List.mem_singleton.mp h)
  | case2 e es => exact List.mem_cons.mp h
  | case3 e es =>
    rcases List.mem_cons.mp h with h | h
    · exact .inl h
    · exact .inr (List.mem_cons_of_mem _ h)
  | case4 e es _ _ ih =>
    rcases List.mem_cons.mp h with h | h
    · exact .inr (h ▸ List.mem_cons_self)
    · exact (ih h).imp_right (List.mem_cons_of_mem _)

/-- A list in order stays in order. -/
theorem pairwise_insert (c : Check) {ds : List Check} (h : ds.Pairwise (·.id < ·.id)) :
    (insert c ds).Pairwise (·.id < ·.id) := by
  fun_induction insert c ds with
  | case1 => exact List.pairwise_singleton _ _
  | case2 d ds lt =>
    refine List.pairwise_cons.mpr ⟨fun e he ↦ ?_, h⟩
    rcases List.mem_cons.mp he with rfl | he
    · exact lt
    · exact BindingId.lt_trans lt (List.rel_of_pairwise_cons h he)
  | case3 d ds _ eq =>
    obtain ⟨before, rest⟩ := List.pairwise_cons.mp h
    exact List.pairwise_cons.mpr ⟨fun e he ↦ eq ▸ before e he, rest⟩
  | case4 d ds nlt ne ih =>
    obtain ⟨before, rest⟩ := List.pairwise_cons.mp h
    refine List.pairwise_cons.mpr ⟨fun e he ↦ ?_, ih rest⟩
    rcases eq_or_mem_of_mem_insert he with rfl | he
    · exact BindingId.lt_of_not_lt nlt ne
    · exact before e he

/-- Registers a check in place of any earlier one of its binding. -/
def register (cs : Checks) (c : Check) : Checks := ⟨insert c cs.toList, pairwise_insert c cs.sorted⟩

/-- The check of a binding. -/
def get? (cs : Checks) (id : BindingId) : Option Check := cs.toList.find? (·.id == id)

/-- Takes out the check of a binding. -/
def take (cs : Checks) (id : BindingId) : Option Check × Checks :=
  (cs.get? id, ⟨cs.toList.filter (·.id != id), cs.sorted.filter _⟩)

/-- The bindings that have a check. -/
def ids (cs : Checks) : List BindingId := cs.toList.map (·.id)

/-- Number of checks. -/
def size (cs : Checks) : Nat := cs.toList.length

/-- Whether all checks are completed. -/
def isEmpty (cs : Checks) : Bool := cs.toList.isEmpty

/-- Takes out the check of a binding and completes it. -/
def complete {σ : Type} (cs : Checks) (id : BindingId) (width height : UInt32) (sink : Sink σ)
    (s : σ) : Option ChannelSize × Checks × σ :=
  match cs.take id with
  | (none, cs) => (none, cs, s)
  | (some c, cs) =>
    let (size, s) := c.complete width height sink s
    (some size, cs, s)

@[simp] theorem get?_empty (id : BindingId) : empty.get? id = none := rfl

@[simp] theorem size_empty : empty.size = 0 := rfl

end Checks

end ShaderChannels
