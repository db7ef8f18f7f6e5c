import ShaderChannels.Proofs.Document.Sound

/-!
# Issues in their places

Issues are listed as a document is read: buffer by buffer, in a buffer input by input, and of an
input one question after the other.  `Document.Finding d p x` says by rules, and for each place by
itself, that the issue `x` is to be found at the place `p`.  Whether the channel of an input is taken
is a question about the inputs before it, so an input is told together with these.

`Enumerates P xs` says that the issues `xs` are those of which `P` tells, in order of their places
and each place once.  A list that is put together enumerates what its parts do, if the places of one
part come before those of the next.

* `Enumerates.append`, `Enumerates.flatMap` — lists that are put together.
* `Texture.enumerates_issues`, `Buffer.enumerates_issues`, `Document.enumerates_issues` — one input,
  one buffer, a document.
* `Document.issues_exact` — the issues of a document are its findings, and there are none exactly if
  the document is sound.
-/

namespace ShaderChannels

/-! ## Places -/

/-- What an input is looked at for. -/
inductive Aspect where
  /-- Whether its channel exists. -/
  | limit
  /-- Whether its channel is free. -/
  | taken
  /-- Whether there is a buffer that it can read. -/
  | reference
deriving DecidableEq

/-- The order of the questions. -/
def Aspect.rank : Aspect → Nat
  | .limit => 0
  | .taken => 1
  | .reference => 2

/-- A place of a document where there may be an issue. -/
inductive Place where
  /-- The document as a whole. -/
  | whole
  /-- An input of a buffer, by their positions, with one question about it. -/
  | input (buffer position : Nat) (aspect : Aspect)
  /-- The previous frame of a buffer, which comes after its inputs. -/
  | feedback (buffer : Nat)
deriving DecidableEq

namespace Place

/-- Places are ordered by these numbers, from the first to the last. -/
def key : Place → List Nat
  | .whole => []
  | .input i k a => [i, 0, k, a.rank]
  | .feedback i => [i, 1]

instance instLT : LT Place where
  lt p q := p.key < q.key

theorem lt_iff {p q : Place} : p < q ↔ p.key < q.key := Iff.rfl

/-- The inputs and the previous frame of one buffer come before those of the next. -/
theorem lt_of_buffer_lt {p q : Place} {i j : Nat} {ps qs : List Nat} (hp : p.key = i :: ps)
    (hq : q.key = j :: qs) (h : i < j) : p < q := by
  rw [lt_iff, hp, hq, List.cons_lt_cons_iff]
  exact .inl h

theorem input_lt_input {i k l : Nat} (h : k < l) (a c : Aspect) :
    input i k a < input i l c := by
  simp [lt_iff, key, List.cons_lt_cons_iff, h]

theorem input_lt_input_of_rank {i k : Nat} {a c : Aspect} (h : a.rank < c.rank) :
    input i k a < input i k c := by
  simp [lt_iff, key, List.cons_lt_cons_iff, h]

theorem input_lt_feedback (i k : Nat) (a : Aspect) : input i k a < feedback i := by
  simp [lt_iff, key, List.cons_lt_cons_iff]

end Place

/-! ## Enumerations -/

/-- `Enumerates P xs`: the issues `xs` are those of which `P` tells, in order of their places and
each place once. -/
def Enumerates (P : Place → Issue → Prop) (xs : List Issue) : Prop :=
  ∃ found : List (Place × Issue), found.map Prod.snd = xs ∧
    (found.map Prod.fst).Pairwise (· < ·) ∧ ∀ p x, (p, x) ∈ found ↔ P p x

namespace Enumerates

variable {P Q : Place → Issue → Prop} {xs ys : List Issue}

theorem congr (h : Enumerates P xs) (same : ∀ p x, P p x ↔ Q p x) : Enumerates Q xs := by
  obtain ⟨found, issues, order, all⟩ := h
  exact ⟨found, issues, order, fun p x ↦ (all p x).trans (same p x)⟩

theorem nil (none : ∀ p x, ¬ P p x) : Enumerates P [] :=
  ⟨[], rfl, .nil, fun p x ↦ iff_of_false List.not_mem_nil (none p x)⟩

theorem singleton (q : Place) (y : Issue) : Enumerates (fun p x ↦ p = q ∧ x = y) [y] :=
  ⟨[(q, y)], rfl, List.pairwise_singleton _ _, fun p x ↦ by simp⟩

/-- An issue that is there under a condition. -/
theorem ite (c : Prop) [Decidable c] (q : Place) (y : Issue) :
    Enumerates (fun p x ↦ c ∧ p = q ∧ x = y) (if c then [y] else []) := by
  split_ifs with h
  · exact (singleton q y).congr fun p x ↦ (and_iff_right h).symm
  · exact nil fun p x found ↦ h found.1

theorem append (h : Enumerates P xs) (h' : Enumerates Q ys)
    (before : ∀ p x q y, P p x → Q q y → p < q) :
    Enumerates (fun p x ↦ P p x ∨ Q p x) (xs ++ ys) := by
  obtain ⟨found, rfl, order, all⟩ := h
  obtain ⟨found', rfl, order', all'⟩ := h'
  refine ⟨found ++ found', List.map_append, ?_, fun p x ↦ ?_⟩
  · rw [List.map_append, List.pairwise_append]
    refine ⟨order, order', fun p hp q hq ↦ ?_⟩
    obtain ⟨⟨p, x⟩, here, rfl⟩ := List.mem_map.mp hp
    obtain ⟨⟨q, y⟩, there, rfl⟩ := List.mem_map.mp hq
    exact before p x q y ((all p x).mp here) ((all' q y).mp there)
  · rw [List.mem_append, all, all']

/-- The issues of the items of a list, one item after the other. -/
theorem flatMap {α : Type} {f : α → List Issue} {R : α → Place → Issue → Prop} {as : List α}
    (each : ∀ a ∈ as, Enumerates (R a) (f a))
    (before : as.Pairwise fun a c ↦ ∀ p x q y, R a p x → R c q y → p < q) :
    Enumerates (fun p x ↦ ∃ a ∈ as, R a p x) (as.flatMap f) := by
  induction as with
  | nil => exact nil (by simp)
  | cons a as ih =>
    obtain ⟨first, each⟩ := List.forall_mem_cons.mp each
    obtain ⟨next, before⟩ := List.pairwise_cons.mp before
    rw [List.flatMap_cons]
    refine (first.append (ih each before) ?_).congr fun p x ↦ by simp
    rintro p x q y here ⟨c, hc, there⟩
    exact next c hc p x q y here there

end Enumerates

/-! ## One input -/

/-- `t.Finding count i name before p x`: the input `t` of buffer number `i` among `count`, which is
called `name`, comes after the inputs `before`, and at the place `p` there is the issue `x` with
it. -/
inductive Texture.Finding (count i : Nat) (name : String) (before : List Texture) (t : Texture) :
    Place → Issue → Prop
  | /-- Its channel does not exist. -/
    channelLimit : channelLimit ≤ t.channel →
      Finding count i name before t (.input i before.length .limit) (.channelLimit name t.channel)
  | /-- An earlier input is bound to its channel. -/
    channelTaken : t.channel ∈ before.map Texture.channel →
      Finding count i name before t (.input i before.length .taken) (.channelTaken name t.channel)
  | /-- The buffer that it reads does not exist. -/
    undefinedBuffer {n : Nat} : t.bufferIndex = some n → count ≤ n →
      Finding count i name before t (.input i before.length .reference) (.undefinedBuffer name n)
  | /-- The buffer that it reads is its own. -/
    readsItself : t.bufferIndex = some i →
      Finding count i name before t (.input i before.length .reference)
        (.readsItself name t.channel)

variable {count i : Nat} {name : String} {before : List Texture} {p q : Place} {x y : Issue}

theorem Texture.Finding.exists_place {t : Texture} (h : t.Finding count i name before p x) :
    ∃ a, p = .input i before.length a := by
  cases h <;> exact ⟨_, rfl⟩

theorem Texture.enumerates_issues (name : String) {taken : List Channel} (own : i < count)
    (same : ∀ c, c ∈ taken ↔ c ∈ before.map Texture.channel) (t : Texture) :
    Enumerates (t.Finding count i name before) (t.issues count i name taken) := by
  have limit := Enumerates.ite (ShaderChannels.channelLimit ≤ t.channel)
    (.input i before.length .limit) (.channelLimit name t.channel)
  have repeated := Enumerates.ite (t.channel ∈ taken)
    (.input i before.length .taken) (.channelTaken name t.channel)
  obtain ⟨xs, all, reference⟩ : ∃ xs, t.issues count i name taken =
      (if ShaderChannels.channelLimit ≤ t.channel then [.channelLimit name t.channel] else []) ++
        (if t.channel ∈ taken then [.channelTaken name t.channel] else []) ++ xs ∧
      Enumerates (fun p x ↦ p = .input i before.length .reference ∧
        ((∃ n, t.bufferIndex = some n ∧ count ≤ n ∧ x = .undefinedBuffer name n) ∨
          t.bufferIndex = some i ∧ x = .readsItself name t.channel)) xs := by
    refine ⟨_, rfl, ?_⟩
    cases t.bufferIndex with
    | none => exact .nil (by simp)
    | some n =>
      let place := Place.input i before.length .reference
      dsimp only
      split_ifs with outside self
      -- the own buffer exists, so the two issues exclude each other
      · have ne : n ≠ i := by omega
        exact (Enumerates.singleton place _).congr fun p x ↦ by simp [outside, ne, place]
      · have inside : ¬ count ≤ i := by omega
        exact (Enumerates.singleton place _).congr fun p x ↦ by simp [self, inside, place]
      · exact .nil (by simp [outside, self])
  rw [all]
  refine ((limit.append repeated ?_).append reference ?_).congr fun p x ↦ ⟨?_, ?_⟩
  · rintro _ _ _ _ ⟨-, rfl, -⟩ ⟨-, rfl, -⟩
    exact Place.input_lt_input_of_rank (by decide)
  · rintro _ _ _ _ (⟨-, rfl, -⟩ | ⟨-, rfl, -⟩) ⟨rfl, -⟩
    · exact Place.input_lt_input_of_rank (by decide)
    · exact Place.input_lt_input_of_rank (by decide)
  · rintro ((⟨h, rfl, rfl⟩ | ⟨h, rfl, rfl⟩) | ⟨rfl, ⟨n, read, h, rfl⟩ | ⟨read, rfl⟩⟩)
    · exact .channelLimit h
    · exact .channelTaken ((same _).mp h)
    · exact .undefinedBuffer read h
    · exact .readsItself read
  · rintro (h | h | ⟨read, h⟩ | read)
    · exact .inl (.inl ⟨h, rfl, rfl⟩)
    · exact .inl (.inr ⟨(same _).mpr h, rfl, rfl⟩)
    · exact .inr ⟨rfl, .inl ⟨_, read, h, rfl⟩⟩
    · exact .inr ⟨rfl, .inr ⟨read, rfl⟩⟩

/-! ## One buffer -/

/-- `b.Finding count i p x`: with the buffer `b`, number `i` among `count`, there is the issue `x`
at the place `p`. -/
inductive Buffer.Finding (count i : Nat) (b : Buffer) : Place → Issue → Prop
  | /-- There is an issue with an input. -/
    input {before after : List Texture} {t : Texture} {p : Place} {x : Issue} :
      b.textures = before ++ t :: after → t.Finding count i b.name before p x →
      Finding count i b p x
  | /-- The previous frame is read, and its channel does not exist. -/
    feedbackLimit : b.usesSelf → channelLimit ≤ b.selfChannel →
      Finding count i b (.feedback i) (.feedbackLimit b.name b.selfChannel)

namespace Buffer

theorem Finding.key_eq {b : Buffer} (h : b.Finding count i p x) : ∃ ps, p.key = i :: ps := by
  cases h with
  | input cut h =>
    obtain ⟨a, rfl⟩ := h.exists_place
    exact ⟨_, rfl⟩
  | feedbackLimit => exact ⟨_, rfl⟩

/-- The issues of inputs that come after the inputs `before`. -/
theorem enumerates_inputIssues (name : String) {taken : List Channel} (own : i < count)
    (same : ∀ c, c ∈ taken ↔ c ∈ before.map Texture.channel) (ts : List Texture) :
    Enumerates (fun p x ↦ ∃ earlier t after, ts = earlier ++ t :: after ∧
        t.Finding count i name (before ++ earlier) p x)
      (inputIssues count i name taken ts) := by
  induction ts generalizing before taken with
  | nil => exact .nil (by simp)
  | cons t ts ih =>
    -- the channels taken are those of the inputs before, and this input comes before the others
    have more (c : Channel) :
        c ∈ t.channel :: taken ↔ c ∈ (before ++ [t]).map Texture.channel := by
      simp [same, or_comm]
    refine ((t.enumerates_issues name own same).append (ih more) ?_).congr fun p x ↦ ⟨?_, ?_⟩
    · rintro p x q y here ⟨earlier, u, after, -, there⟩
      obtain ⟨a, rfl⟩ := here.exists_place
      obtain ⟨c, rfl⟩ := there.exists_place
      exact Place.input_lt_input (by simp) a c
    · rintro (h | ⟨earlier, u, after, rfl, h⟩)
      · exact ⟨[], t, ts, rfl, by rwa [List.append_nil]⟩
      · exact ⟨t :: earlier, u, after, rfl, by rwa [List.append_cons]⟩
    · rintro ⟨_ | ⟨u, earlier⟩, v, after, cut, h⟩
      · obtain ⟨rfl, rfl⟩ := List.cons.inj cut
        rw [List.append_nil] at h
        exact .inl h
      · obtain ⟨rfl, rfl⟩ := List.cons.inj cut
        rw [List.append_cons] at h
        exact .inr ⟨earlier, v, after, rfl, h⟩

theorem enumerates_issues (own : i < count) (b : Buffer) :
    Enumerates (b.Finding count i) (b.issues count i) := by
  have free (c : Channel) : c ∈ [] ↔ c ∈ [].map Texture.channel := Iff.rfl
  have inputs := enumerates_inputIssues b.name own free b.textures
  have feedback := Enumerates.ite (b.usesSelf ∧ channelLimit ≤ b.selfChannel) (.feedback i)
    (.feedbackLimit b.name b.selfChannel)
  refine (inputs.append feedback ?_).congr fun p x ↦ ⟨?_, ?_⟩
  · rintro p x q y ⟨earlier, t, after, -, h⟩ ⟨-, rfl, -⟩
    obtain ⟨a, rfl⟩ := h.exists_place
    exact Place.input_lt_feedback i _ a
  · rintro (⟨earlier, t, after, cut, h⟩ | ⟨⟨self, limit⟩, rfl, rfl⟩)
    · exact .input cut h
    · exact .feedbackLimit self limit
  · rintro (⟨cut, h⟩ | ⟨self, limit⟩)
    · exact .inl ⟨_, _, _, cut, h⟩
    · exact .inr ⟨⟨self, limit⟩, rfl, rfl⟩

end Buffer

/-! ## A document -/

namespace Document

/-- `d.Finding p x`: in the document `d` there is the issue `x` at the place `p`. -/
inductive Finding (d : Document) : Place → Issue → Prop
  | /-- There are no buffers. -/
    noBuffers : d.buffers = [] → d.Finding .whole .noBuffers
  | /-- There is an issue with a buffer. -/
    buffer {i : Nat} {b : Buffer} {p : Place} {x : Issue} :
      d.buffers[i]? = some b → b.Finding d.buffers.length i p x → d.Finding p x

theorem enumerates_issues (d : Document) : Enumerates d.Finding d.issues := by
  have whole := Enumerates.ite d.buffers.isEmpty .whole .noBuffers
  have order : d.buffers.zipIdx.Pairwise fun a c ↦ a.2 < c.2 := by
    rw [← List.pairwise_map, List.zipIdx_map_snd]
    exact List.pairwise_lt_range'
  have buffers : Enumerates (fun p x ↦ ∃ a ∈ d.buffers.zipIdx, a.1.Finding d.buffers.length a.2 p x)
      (d.buffers.zipIdx.flatMap fun a ↦ a.1.issues d.buffers.length a.2) := by
    refine .flatMap ?_ (order.imp ?_)
    · rintro ⟨b, i⟩ mem
      have found := List.mem_zipIdx_iff_getElem?.mp mem
      exact b.enumerates_issues (List.getElem?_eq_some_iff.mp found).1
    · rintro ⟨b, i⟩ ⟨c, j⟩ lt p x q y here there
      obtain ⟨ps, hp⟩ := here.key_eq
      obtain ⟨qs, hq⟩ := there.key_eq
      exact Place.lt_of_buffer_lt hp hq lt
  refine (whole.append buffers ?_).congr fun p x ↦ ⟨?_, ?_⟩
  · rintro _ _ q y ⟨-, rfl, -⟩ ⟨⟨b, i⟩, -, there⟩
    obtain ⟨qs, hq⟩ := there.key_eq
    rw [Place.lt_iff, hq]
    exact List.nil_lt_cons _ _
  · rintro (⟨none, rfl, rfl⟩ | ⟨⟨b, i⟩, mem, h⟩)
    · exact .noBuffers (List.isEmpty_iff.mp none)
    · exact .buffer (List.mem_zipIdx_iff_getElem?.mp mem) h
  · rintro (none | ⟨found, h⟩)
    · exact .inl ⟨List.isEmpty_iff.mpr none, rfl, rfl⟩
    · exact .inr ⟨(_, _), List.mem_zipIdx_iff_getElem?.mpr found, h⟩

/-- **Issues are exact.**  The issues of a document are its findings, in order of their places and
each place once: that there are no buffers; with each input that its channel does not exist, that an
earlier input of the buffer is bound to it, that the buffer it reads does not exist or is its own;
and after the inputs of a buffer that the channel of its previous frame does not exist.  There are
none exactly if the document is sound. -/
theorem issues_exact (d : Document) :
    (d.issues = [] ↔ d.Sound) ∧ Enumerates d.Finding d.issues :=
  ⟨d.issues_eq_nil_iff, d.enumerates_issues⟩

end Document

end ShaderChannels
