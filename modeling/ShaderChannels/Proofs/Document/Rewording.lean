import ShaderChannels.Proofs.Binding.Canonical
import ShaderChannels.Proofs.Document.Entry

/-!
# Changing the word of a setting

A filter or a wrap mode may be given by any word.  So in a document that is decoded, the word of such
a setting may be replaced by any other: the document is still decoded, and only that setting is
another one.  All words outside the vocabulary are bound like the default.

* `Toml.Place` — where the value of a key stands among other values.
* `Decode.Puts` — an entry gives one field its value and has no part in the others.
* `Decode.foldlM_fill`, `Decode.list_fill` — what changes with the value in a place.
* `Setting.Place` — where the word of a setting stands in a document.
* `Decode.document_reword` — the theorem.
-/

namespace ShaderChannels

open Toml (Value Table)

/-! ## Settings that are given by any word -/

/-- A setting of an input for which every word will do. -/
inductive Setting where
  | mag
  | min
  | wrap
deriving DecidableEq

namespace Setting

/-- The key it is given under. -/
def key : Setting → String
  | .mag => "mag"
  | .min => "min"
  | .wrap => "wrap"

/-- The words that mean something. -/
def vocabulary : Setting → List String
  | .mag => ["Nearest", "Linear"]
  | .min => ["Nearest", "NearestMipMapNearest", "NearestMipMapLinear", "Linear",
      "LinearMipMapNearest", "LinearMipMapLinear"]
  | .wrap => ["Clamp", "Repeat", "Mirror"]

/-- The word of the default. -/
def default : Setting → String
  | .mag | .min => "Linear"
  | .wrap => "Repeat"

/-- Gives an input the setting that a word stands for. -/
def write : Setting → String → Texture → Texture
  | .mag, w, t => { t with mag := some (.ofWord w) }
  | .min, w, t => { t with min := some (.ofWord w) }
  | .wrap, w, t => { t with wrap := some (.ofWord w) }

variable {s : Setting} {w : String}

theorem write_write (s : Setting) (w w' : String) (t : Texture) :
    s.write w (s.write w' t) = s.write w t := by
  cases s <;> rfl

/-- Words outside the vocabulary do what the default does. -/
theorem canonical_write (unknown : w ∉ s.vocabulary) (t : Texture) :
    (s.write w t).canonical = (s.write s.default t).canonical := by
  cases s with
  | mag =>
    have : MagSetting.ofWord w = .unrecognized := by
      unfold MagSetting.ofWord
      split <;> simp_all [vocabulary]
    rw [write, this]
    rfl
  | min =>
    have : MinSetting.ofWord w = .unrecognized := by
      unfold MinSetting.ofWord
      split <;> simp_all [vocabulary]
    rw [write, this]
    rfl
  | wrap =>
    have : WrapSetting.ofWord w = .unrecognized := by
      unfold WrapSetting.ofWord
      split <;> simp_all [vocabulary]
    rw [write, this]
    rfl

end Setting

/-! ## Changes of one input -/

/-- Changes an input of a buffer of a document, both by their positions. -/
def Document.modify (d : Document) (i j : Nat) (f : Texture → Texture) : Document :=
  { d with buffers := d.buffers.modify i fun b ↦ { b with textures := b.textures.modify j f } }

theorem map_modify_congr {α β : Type} {h : α → β} {f g : α → α} (same : ∀ a, h (f a) = h (g a))
    (as : List α) (i : Nat) : (as.modify i f).map h = (as.modify i g).map h := by
  induction as generalizing i with
  | nil => rw [List.modify_nil, List.modify_nil]
  | cons a as ih =>
    cases i with
    | zero => simp only [List.modify_zero_cons, List.map_cons, same]
    | succ i => simp only [List.modify_succ_cons, List.map_cons, ih]

/-- Changes that make no difference to the canonical settings make none to a resolution. -/
theorem Binder.resolve_modify {f g : Texture → Texture}
    (same : ∀ t, (f t).canonical = (g t).canonical) (b : Binder) (d : Document) (i j : Nat) :
    b.resolve (d.modify i j f).buffers = b.resolve (d.modify i j g).buffers := by
  rw [← resolve_canonical b (d.modify i j f).buffers,
    ← resolve_canonical b (d.modify i j g).buffers]
  refine congrArg b.resolve (map_modify_congr (fun buffer ↦ ?_) d.buffers i)
  exact congrArg (fun ts ↦ { buffer with textures := ts }) (map_modify_congr same _ j)

/-! ## Places -/

/-- The value of a key among others: as an entry of a table, or where an array has the values of
`keys` in order. -/
inductive Toml.Place (keys : List String) (key : String)
  | /-- If the key has several entries, this is the last. -/
    entry (before after : Table) (last : key ∉ after.map Prod.fst)
  | item (before after : List Value) (position : keys[before.length]? = some key)

namespace Toml.Place

variable {keys : List String} {key : String}

/-- A value with the others around it. -/
def fill : Place keys key → Value → Value
  | .entry before after _, v => .table (before ++ (key, v) :: after)
  | .item before after _, v => .array (before ++ v :: after)

/-- The same as the entries of a table. -/
def entries : Place keys key → Value → Table
  | .entry before after _, v => before ++ (key, v) :: after
  | .item before after _, v => keys.zip (before ++ v :: after)

theorem exists_entries (distinct : keys.Nodup) (p : Place keys key) :
    ∃ before after : Table, key ∉ after.map Prod.fst ∧
      ∀ v, p.entries v = before ++ (key, v) :: after := by
  cases p with
  | entry before after last => exact ⟨before, after, last, fun _ ↦ rfl⟩
  | item before after position =>
    obtain ⟨inside, rfl⟩ := List.getElem?_eq_some_iff.mp position
    have cut : keys.drop before.length = keys[before.length] :: keys.drop (before.length + 1) :=
      List.drop_eq_getElem_cons inside
    refine ⟨(keys.take before.length).zip before, (keys.drop (before.length + 1)).zip after, ?_, ?_⟩
    · intro mem
      obtain ⟨⟨k, v⟩, he, same⟩ := List.mem_map.mp mem
      have later : keys[before.length] ∈ keys.drop (before.length + 1) :=
        same ▸ (List.of_mem_zip he).1
      exact (List.nodup_cons.mp (cut ▸ distinct.sublist (List.drop_sublist _ _))).1 later
    · intro v
      have level : (keys.take before.length).length = before.length :=
        List.length_take_of_le (Nat.le_of_lt inside)
      calc keys.zip (before ++ v :: after)
        _ = (keys.take before.length ++ keys.drop before.length).zip (before ++ v :: after) := by
          rw [List.take_append_drop]
        _ = _ := by rw [List.zip_append level, cut, List.zip_cons_cons]

end Toml.Place

namespace Decode

/-! ## Fields -/

section

variable {σ α : Type} {key : String} {put : σ → String → Value → Except Fault σ}
  {read : Value → Except Fault α} {set : α → σ → σ} {before after es : Table} {s t : σ} {v : Value}

/-- An entry of the key has its value read and sets a field to that; other entries neither read nor
set the field. -/
structure Puts (put : σ → String → Value → Except Fault σ) (key : String)
    (read : Value → Except Fault α) (set : α → σ → σ) : Prop where
  here : ∀ s v, put s key v = (set · s) <$> read v
  elsewhere : ∀ a s k v, k ≠ key → put (set a s) k v = set a <$> put s k v
  twice : ∀ a a' s, set a (set a' s) = set a s

theorem Puts.foldlM_set (puts : Puts put key read set) (fresh : key ∉ es.map Prod.fst) (a : α) :
    es.foldlM (fun s e ↦ put s e.1 e.2) (set a s) =
      set a <$> es.foldlM (fun s e ↦ put s e.1 e.2) s := by
  induction es generalizing s with
  | nil => rfl
  | cons e es ih =>
    obtain ⟨other, fresh⟩ := List.ne_and_not_mem_of_not_mem_cons fresh
    rw [List.foldlM_cons, List.foldlM_cons, puts.elsewhere a s e.1 e.2 (Ne.symm other), map_bind,
      bind_map_left]
    exact congrArg _ (funext fun s' ↦ ih fresh)

/-- In a table that is read to the end, another value may stand for the last one of a key: the result
is the same, with the field set anew. -/
theorem Puts.foldlM_fill (puts : Puts put key read set) (last : key ∉ after.map Prod.fst)
    (h : (before ++ (key, v) :: after).foldlM (fun s e ↦ put s e.1 e.2) s = .ok t) :
    ∃ a, read v = .ok a ∧ set a t = t ∧ ∀ v' a', read v' = .ok a' →
      (before ++ (key, v') :: after).foldlM (fun s e ↦ put s e.1 e.2) s = .ok (set a' t) := by
  obtain ⟨s₁, first, h⟩ := foldlM_append_eq_ok_iff.mp h
  obtain ⟨s₂, now, rest⟩ := foldlM_cons_eq_ok_iff.mp h
  rw [puts.here, map_eq_ok_iff] at now
  obtain ⟨a, ha, rfl⟩ := now
  rw [puts.foldlM_set last, map_eq_ok_iff] at rest
  obtain ⟨u, hu, rfl⟩ := rest
  refine ⟨a, ha, puts.twice a a u, fun v' a' ha' ↦ ?_⟩
  refine foldlM_append_eq_ok_iff.mpr ⟨s₁, first, foldlM_cons_eq_ok_iff.mpr ⟨set a' s₁, ?_, ?_⟩⟩
  · rw [puts.here, ha']
    rfl
  · rw [puts.foldlM_set last, hu, puts.twice]
    rfl

/-- In an array that is read, another value may stand for one of them. -/
theorem list_fill {item : Value → Except Fault α} {before after : List Value} {as : List α}
    (h : list item (.array (before ++ v :: after)) = .ok as) :
    ∃ a, as[before.length]? = some a ∧ item v = .ok a ∧ ∀ v' f, item v' = .ok (f a) →
      list item (.array (before ++ v' :: after)) = .ok (as.modify before.length f) := by
  obtain ⟨xs, a, ys, hxs, ha, hys, rfl⟩ := mapM_append_cons_eq_ok_iff.mp h
  have level : xs.length = before.length := (mapM_eq_ok_iff.mp hxs).length_eq.symm
  rw [← level]
  refine ⟨a, by simp, ha, fun v' f hf ↦ ?_⟩
  refine mapM_append_cons_eq_ok_iff.mpr ⟨xs, f a, ys, hxs, hf, hys, ?_⟩
  rw [List.modify_eq_take_cons_drop (by simp)]
  simp

end

/-! ## Levels of a document -/

theorem setting_comp {α : Type} (f : String → α) (v : Value) :
    setting (.ok ∘ f) v = f <$> setting .ok v := by
  rcases v with w | _ | _ | _ | _ | _ | (_ | ⟨⟨w, body⟩, _ | _⟩)
  case table.cons.nil =>
    rw [setting, setting]
    cases nothing body <;> rfl
  all_goals rfl

theorem puts_setting (s : Setting) : Puts putTexture s.key (setting .ok) s.write where
  here t v := by
    cases s with
    | mag =>
      show (do return { t with mag := some (← setting (.ok ∘ MagSetting.ofWord) v) }) = _
      rw [setting_comp]
      cases setting .ok v <;> rfl
    | min =>
      show (do return { t with min := some (← setting (.ok ∘ MinSetting.ofWord) v) }) = _
      rw [setting_comp]
      cases setting .ok v <;> rfl
    | wrap =>
      show (do return { t with wrap := some (← setting (.ok ∘ WrapSetting.ofWord) v) }) = _
      rw [setting_comp]
      cases setting .ok v <;> rfl
  elsewhere w t k v other := by
    cases s
    all_goals
      unfold putTexture
      split
      all_goals first
        | exact absurd rfl other
        | simp only [map_bind, map_pure, Setting.write]
  twice := s.write_write

theorem puts_texture :
    Puts putBuffer "texture" (list texture) fun ts b ↦ { b with textures := ts } where
  here b v := by
    show (do return { b with textures := ← list texture v }) = _
    rw [bind_pure_comp]
  elsewhere ts b k v other := by
    unfold putBuffer
    split
    all_goals first
      | exact absurd rfl other
      | simp only [map_bind, map_pure]
  twice _ _ _ := rfl

theorem puts_buffer :
    Puts putDocument "buffer" (list buffer) fun bs d ↦ { d with buffers := bs } where
  here d v := by
    show (do return { d with buffers := ← list buffer v }) = _
    rw [bind_pure_comp]
  elsewhere bs d k v other := by
    unfold putDocument
    split
    all_goals first
      | exact absurd rfl other
      | simp only [map_bind, map_pure]
  twice _ _ _ := rfl

variable {s : Setting} {v : Value} {w : String} {t : Texture} {b : Buffer} {d : Document}

theorem texture_fill {key : String} (p : Toml.Place textureKeys key) (v : Value) :
    texture (p.fill v) = textureOfTable (p.entries v) := by
  cases p with
  | entry => rfl
  | item before => cases before <;> rfl

theorem buffer_fill {key : String} (p : Toml.Place bufferKeys key) (v : Value) :
    buffer (p.fill v) = bufferOfTable (p.entries v) := by
  cases p with
  | entry => rfl
  | item before => cases before <;> rfl

/-- In an input, the word of a setting may be replaced. -/
theorem texture_reword {p : Toml.Place textureKeys s.key}
    (h : texture (p.fill (.string w)) = .ok t) :
    s.write w t = t ∧ ∀ w', texture (p.fill (.string w')) = .ok (s.write w' t) := by
  obtain ⟨before, after, last, entries⟩ := p.exists_entries (by decide)
  simp only [texture_fill, entries, textureOfTable, require_eq_ok_iff] at h ⊢
  obtain ⟨h, channel⟩ := h
  obtain ⟨_, ⟨⟩, same, other⟩ := (puts_setting s).foldlM_fill last h
  refine ⟨same, fun w' ↦ ⟨other _ w' rfl, ?_⟩⟩
  simpa using channel

/-- In a buffer, the inputs may be replaced. -/
theorem buffer_refill {p : Toml.Place bufferKeys "texture"} (h : buffer (p.fill v) = .ok b) :
    list texture v = .ok b.textures ∧ ∀ v' ts, list texture v' = .ok ts →
      buffer (p.fill v') = .ok { b with textures := ts } := by
  obtain ⟨before, after, last, entries⟩ := p.exists_entries (by decide)
  simp only [buffer_fill, entries, bufferOfTable, require_eq_ok_iff] at h ⊢
  obtain ⟨h, name⟩ := h
  obtain ⟨ts, told, same, other⟩ := puts_texture.foldlM_fill last h
  obtain rfl : ts = b.textures := congrArg Buffer.textures same
  refine ⟨told, fun v' ts hts ↦ ⟨other v' ts hts, ?_⟩⟩
  simpa using name

/-- In a document, the buffers may be replaced. -/
theorem document_refill {p : Toml.Place [] "buffer"} (h : document (p.entries v) = .ok d) :
    list buffer v = .ok d.buffers ∧ ∀ v' bs, list buffer v' = .ok bs →
      document (p.entries v') = .ok { d with buffers := bs } := by
  obtain ⟨before, after, last, entries⟩ := p.exists_entries List.nodup_nil
  simp only [entries, document] at h ⊢
  obtain ⟨bs, told, same, other⟩ := puts_buffer.foldlM_fill last h
  obtain rfl : bs = d.buffers := congrArg Document.buffers same
  exact ⟨told, other⟩

end Decode

/-! ## The theorem -/

/-- Where the word of a setting stands in a document, with all that stands around it. -/
structure Setting.Place (s : Setting) where
  buffers : Toml.Place [] "buffer"
  buffersBefore : List Value
  buffersAfter : List Value
  textures : Toml.Place Decode.bufferKeys "texture"
  texturesBefore : List Value
  texturesAfter : List Value
  word : Toml.Place Decode.textureKeys s.key

namespace Setting.Place

variable {s : Setting}

/-- The input that has the setting. -/
def texture (p : s.Place) (w : String) : Value := p.word.fill (.string w)

/-- The buffer that has the input. -/
def buffer (p : s.Place) (w : String) : Value :=
  p.textures.fill (.array (p.texturesBefore ++ p.texture w :: p.texturesAfter))

/-- The table of the document. -/
def document (p : s.Place) (w : String) : Table :=
  p.buffers.entries (.array (p.buffersBefore ++ p.buffer w :: p.buffersAfter))

end Setting.Place

namespace Decode

/-- **Words may be replaced.**  In a document that is decoded, any word may stand for that of a
filter or a wrap mode: the document is still decoded, and nothing in it is different except for the
setting of that input.  If the word is not in the vocabulary, the document is bound as it would be
with the word of the default. -/
theorem document_reword {s : Setting} {p : s.Place} {v : String} {d : Document}
    (loads : document (p.document v) = .ok d) :
    let reworded (w : String) : Document :=
      d.modify p.buffersBefore.length p.texturesBefore.length (s.write w)
    (∃ b t, d.buffers[p.buffersBefore.length]? = some b ∧
      b.textures[p.texturesBefore.length]? = some t ∧ s.write v t = t) ∧
    (∀ w, document (p.document w) = .ok (reworded w)) ∧
    ∀ w, w ∉ s.vocabulary → ∀ b : Binder,
      b.resolve (reworded w).buffers = b.resolve (reworded s.default).buffers := by
  intro reworded
  obtain ⟨buffers, redo⟩ := document_refill loads
  obtain ⟨b, hb, loads, buffers⟩ := list_fill buffers
  obtain ⟨textures, rebuffer⟩ := buffer_refill loads
  obtain ⟨t, ht, loads, textures⟩ := list_fill textures
  obtain ⟨same, retexture⟩ := texture_reword loads
  refine ⟨⟨b, t, hb, ht, same⟩, fun w ↦ ?_, fun w unknown binder ↦ ?_⟩
  · exact redo _ _ (buffers _ _ (rebuffer _ _ (textures _ _ (retexture w))))
  · exact binder.resolve_modify (s.canonical_write unknown) d _ _

/-- A filter has another word in output, which means nothing here: in a buffer that is written as an
array, after another one, it does what `Linear` does. -/
theorem document_reword_mipmap :
    let p : Setting.Place .min :=
      { buffers := .entry [("name", .string "Sky")] [] (by decide)
        buffersBefore := [.table [("name", .string "Common")]]
        buffersAfter := []
        textures := .item [.string "Image", .string "image.glsl"] [.boolean true] rfl
        texturesBefore := []
        texturesAfter := [.table [("channel", .integer 2)]]
        word := .entry [("channel", .integer 1), ("local_texture", .string "noise.png"),
          ("mag", .string "Nearest")] [("wrap", .string "Mirror")] (by decide) }
    let t (min : MinSetting) : Texture :=
      { channel := 1, localTexture := some "noise.png", mag := some .nearest, min := some min,
        wrap := some .mirror }
    let d (min : MinSetting) : Document :=
      { name := some "Sky"
        buffers := [{ name := "Common" },
          { name := "Image", file := "image.glsl", textures := [t min, { channel := 2 }],
            usesSelf := true }] }
    document (p.document "NearestMipMapLinear") = .ok (d .nearestMipMapLinear) ∧
      document (p.document "NearestMipLinear") = .ok (d .unrecognized) ∧
      "NearestMipLinear" ∉ Setting.min.vocabulary ∧
      ∀ b : Binder, b.resolve (d .unrecognized).buffers = b.resolve (d .linear).buffers := by
  intro p t d
  have loads : document (p.document "NearestMipMapLinear") = .ok (d .nearestMipMapLinear) := rfl
  obtain ⟨-, reworded, harmless⟩ := document_reword loads
  exact ⟨loads, reworded "NearestMipLinear", by decide, harmless "NearestMipLinear" (by decide)⟩

end Decode

end ShaderChannels
