import ShaderChannels.Proofs.Document.Entry

/-!
# Documents as they are written

Which tables are documents, and which document a table is.  The first is said of the table alone, key
by key; the second field by field.

* `Texture.Acceptable`, `Buffer.Acceptable`, `Document.Acceptable` — what a table must be like.
* `Texture.OfTable`, `Buffer.OfTable`, `Document.Written` — what is written in it.
* `Decode.exists_document_iff` — a document is decoded from the tables that are like that.
* `Decode.document_eq_ok_iff` — it is the one that is written there.
-/

namespace ShaderChannels

open Toml (Value Table)

/-! ## Tables that are documents -/

namespace Toml

def IsString (v : Value) : Prop := ∃ s, v = .string s

def IsBoolean (v : Value) : Prop := ∃ b, v = .boolean b

/-- A number that is not negative. -/
def IsNatural (v : Value) : Prop := ∃ n, v = .integer n ∧ 0 ≤ n

/-- A number that is not negative and below a bound. -/
def IsBelow (bound : Int) (v : Value) : Prop := ∃ n, v = .integer n ∧ 0 ≤ n ∧ n < bound

/-- Any word. -/
def IsWord (v : Value) : Prop := ∃ w, Spells w v

end Toml

/-- What the value of a key must be like in the table of an input. -/
def Texture.Fits (key : String) (v : Value) : Prop :=
  match key with
  | "channel" => Toml.IsBelow 256 v
  | "file" | "local_texture" | "remote_texture" => Toml.IsString v
  | "buffer_index" => Toml.IsNatural v
  | "mag" | "min" | "wrap" => Toml.IsWord v
  | "type" => Toml.Spells "Plain" v ∨ Toml.Spells "CubeMap" v
  | "mag_line" | "min_line" | "wrap_line" | "type_line" => Toml.IsBelow 4294967296 v
  | _ => True

/-- The table is an input: there is a channel, and all values fit. -/
structure Texture.Acceptable (es : Table) : Prop where
  channel : "channel" ∈ es.map Prod.fst
  fits : ∀ e ∈ es, Fits e.1 e.2

/-- What the value of a key must be like in the table of a buffer. -/
def Buffer.Fits (key : String) (v : Value) : Prop :=
  match key with
  | "name" | "file" => Toml.IsString v
  | "texture" => Toml.IsTables Texture.Acceptable v
  | "uses_self" | "uses_keyboard" => Toml.IsBoolean v
  | "self_channel" => Toml.IsBelow 256 v
  | _ => True

/-- The table is a buffer: there is a name, and all values fit. -/
structure Buffer.Acceptable (es : Table) : Prop where
  name : "name" ∈ es.map Prod.fst
  fits : ∀ e ∈ es, Fits e.1 e.2

/-- What the value of a key must be like in the table of a document. -/
def Document.Fits (key : String) (v : Value) : Prop :=
  match key with
  | "name" => Toml.IsString v
  | "buffer" => Toml.IsTables Buffer.Acceptable v
  | _ => True

/-- The table is a document. -/
def Document.Acceptable (es : Table) : Prop := ∀ e ∈ es, Fits e.1 e.2

/-- The table has no key twice, and inputs are tables of which that is true, too. -/
structure Buffer.Regular (es : Table) : Prop where
  distinct : (es.map Prod.fst).Nodup
  tables : ∀ v, ("texture", v) ∈ es → Toml.IsTables (fun es ↦ (es.map Prod.fst).Nodup) v

/-- The table has no key twice, and buffers are tables of which that is true, too.  Both they and
inputs could be written in another way, as arrays that have their fields in order. -/
structure Document.Regular (es : Table) : Prop where
  distinct : (es.map Prod.fst).Nodup
  tables : ∀ v, ("buffer", v) ∈ es → Toml.IsTables Buffer.Regular v

/-! ## What is written in tables -/

/-- `Written t₀ es t`: by the entries `es`, an input is `t`, where `t₀` has the defaults. -/
@[mk_iff]
structure Texture.Written (t₀ : Texture) (es : Table) (t : Texture) : Prop where
  channel : Field es "channel" Says.channel t₀.channel t.channel
  file : Field es "file" (Says.some Says.string) t₀.file t.file
  bufferIndex : Field es "buffer_index" (Says.some Says.index) t₀.bufferIndex t.bufferIndex
  localTexture : Field es "local_texture" (Says.some Says.string) t₀.localTexture t.localTexture
  remoteTexture : Field es "remote_texture" (Says.some Says.string) t₀.remoteTexture t.remoteTexture
  mag : Field es "mag" (Says.some (Says.setting MagSetting.ofWord)) t₀.mag t.mag
  min : Field es "min" (Says.some (Says.setting MinSetting.ofWord)) t₀.min t.min
  wrap : Field es "wrap" (Says.some (Says.setting WrapSetting.ofWord)) t₀.wrap t.wrap
  type : Field es "type" Says.type t₀.type t.type
  magLine : Field es "mag_line" (Says.some Says.line) t₀.magLine t.magLine
  minLine : Field es "min_line" (Says.some Says.line) t₀.minLine t.minLine
  wrapLine : Field es "wrap_line" (Says.some Says.line) t₀.wrapLine t.wrapLine
  typeLine : Field es "type_line" (Says.some Says.line) t₀.typeLine t.typeLine

/-- `OfTable es t`: the input `t` is written as the table `es`, which has its channel. -/
structure Texture.OfTable (es : Table) (t : Texture) : Prop where
  written : Written { channel := 0 } es t
  channel : "channel" ∈ es.map Prod.fst

/-- `Written b₀ es b`: by the entries `es`, a buffer is `b`, where `b₀` has the defaults. -/
@[mk_iff]
structure Buffer.Written (b₀ : Buffer) (es : Table) (b : Buffer) : Prop where
  name : Field es "name" Says.string b₀.name b.name
  file : Field es "file" Says.string b₀.file b.file
  textures : Field es "texture" (Says.tables Texture.OfTable) b₀.textures b.textures
  usesSelf : Field es "uses_self" Says.boolean b₀.usesSelf b.usesSelf
  selfChannel : Field es "self_channel" Says.channel b₀.selfChannel b.selfChannel
  usesKeyboard : Field es "uses_keyboard" Says.boolean b₀.usesKeyboard b.usesKeyboard

/-- `OfTable es b`: the buffer `b` is written as the table `es`, which has its name. -/
structure Buffer.OfTable (es : Table) (b : Buffer) : Prop where
  written : Written { name := "" } es b
  name : "name" ∈ es.map Prod.fst

/-- `Written d₀ es d`: by the entries `es`, a document is `d`, where `d₀` has the defaults. -/
@[mk_iff]
structure Document.Written (d₀ : Document) (es : Table) (d : Document) : Prop where
  name : Field es "name" (Says.some Says.string) d₀.name d.name
  buffers : Field es "buffer" (Says.tables Buffer.OfTable) d₀.buffers d.buffers

/-! ## Values that say something -/

namespace Says

variable {α : Type} {v : Value}

theorem exists_some_iff {R : Value → α → Prop} : (∃ o, some R v o) ↔ ∃ a, R v a := by
  constructor
  · rintro ⟨_, a, h, -⟩
    exact ⟨a, h⟩
  · rintro ⟨a, h⟩
    exact ⟨a, a, h, rfl⟩

theorem exists_string_iff : (∃ s, string v s) ↔ Toml.IsString v := Iff.rfl

theorem exists_boolean_iff : (∃ b, boolean v b) ↔ Toml.IsBoolean v := Iff.rfl

theorem exists_index_iff : (∃ n, index v n) ↔ Toml.IsNatural v := by
  constructor
  · rintro ⟨n, rfl⟩
    exact ⟨n, rfl, Int.natCast_nonneg n⟩
  · rintro ⟨n, rfl, nonneg⟩
    exact ⟨n.toNat, by rw [index, Int.toNat_of_nonneg nonneg]⟩

theorem exists_channel_iff : (∃ c, channel v c) ↔ Toml.IsBelow 256 v := by
  constructor
  · rintro ⟨c, rfl⟩
    have := c.toNat_lt
    exact ⟨c.toNat, rfl, by omega, by omega⟩
  · rintro ⟨n, rfl, nonneg, below⟩
    refine ⟨.ofNat n.toNat, ?_⟩
    rw [channel, UInt8.toNat_ofNat_of_lt' (show n.toNat < 256 by omega), Int.toNat_of_nonneg nonneg]

theorem exists_line_iff : (∃ l, line v l) ↔ Toml.IsBelow 4294967296 v := by
  constructor
  · rintro ⟨l, rfl⟩
    have := l.toNat_lt
    exact ⟨l.toNat, rfl, by omega, by omega⟩
  · rintro ⟨n, rfl, nonneg, below⟩
    refine ⟨.ofNat n.toNat, ?_⟩
    rw [line, UInt32.toNat_ofNat_of_lt' (show n.toNat < 4294967296 by omega),
      Int.toNat_of_nonneg nonneg]

theorem exists_setting_iff {ofWord : String → α} :
    (∃ a, setting ofWord v a) ↔ Toml.IsWord v := by
  constructor
  · rintro ⟨_, w, h, -⟩
    exact ⟨w, h⟩
  · rintro ⟨w, h⟩
    exact ⟨ofWord w, w, h, rfl⟩

theorem exists_type_iff :
    (∃ t, type v t) ↔ Toml.Spells "Plain" v ∨ Toml.Spells "CubeMap" v := by
  constructor
  · rintro ⟨_ | _, h⟩
    · exact .inl h
    · exact .inr h
  · rintro (h | h)
    · exact ⟨.plain, h⟩
    · exact ⟨.cubeMap, h⟩

end Says

/-! ## Inputs -/

section

variable {es : Table} {t t' t₀ t₁ : Texture} {k : String} {v : Value}

theorem Texture.Written.nil (t : Texture) : t.Written [] t := by
  constructor <;> exact .nil

theorem Texture.Written.cons (fresh : k ∉ es.map Prod.fst) (h : t.Written [(k, v)] t₁)
    (h' : t₁.Written es t') : t.Written ((k, v) :: es) t' where
  channel := h.channel.cons fresh h'.channel
  file := h.file.cons fresh h'.file
  bufferIndex := h.bufferIndex.cons fresh h'.bufferIndex
  localTexture := h.localTexture.cons fresh h'.localTexture
  remoteTexture := h.remoteTexture.cons fresh h'.remoteTexture
  mag := h.mag.cons fresh h'.mag
  min := h.min.cons fresh h'.min
  wrap := h.wrap.cons fresh h'.wrap
  type := h.type.cons fresh h'.type
  magLine := h.magLine.cons fresh h'.magLine
  minLine := h.minLine.cons fresh h'.minLine
  wrapLine := h.wrapLine.cons fresh h'.wrapLine
  typeLine := h.typeLine.cons fresh h'.typeLine

/-- One input at most is written in a table. -/
theorem Texture.Written.unique (distinct : (es.map Prod.fst).Nodup) (h : t₀.Written es t)
    (h' : t₀.Written es t') : t = t' := by
  obtain ⟨⟩ := t
  obtain ⟨⟩ := t'
  congr 1
  · exact h.channel.unique distinct (fun _ _ ↦ Says.once_channel) h'.channel
  · exact h.file.unique distinct (fun _ _ ↦ Says.once_string.some) h'.file
  · exact h.bufferIndex.unique distinct (fun _ _ ↦ Says.once_index.some) h'.bufferIndex
  · exact h.localTexture.unique distinct (fun _ _ ↦ Says.once_string.some) h'.localTexture
  · exact h.remoteTexture.unique distinct (fun _ _ ↦ Says.once_string.some) h'.remoteTexture
  · exact h.mag.unique distinct (fun _ _ ↦ (Says.once_setting _).some) h'.mag
  · exact h.min.unique distinct (fun _ _ ↦ (Says.once_setting _).some) h'.min
  · exact h.wrap.unique distinct (fun _ _ ↦ (Says.once_setting _).some) h'.wrap
  · exact h.type.unique distinct (fun _ _ ↦ Says.once_type) h'.type
  · exact h.magLine.unique distinct (fun _ _ ↦ Says.once_line.some) h'.magLine
  · exact h.minLine.unique distinct (fun _ _ ↦ Says.once_line.some) h'.minLine
  · exact h.wrapLine.unique distinct (fun _ _ ↦ Says.once_line.some) h'.wrapLine
  · exact h.typeLine.unique distinct (fun _ _ ↦ Says.once_line.some) h'.typeLine

/-- What is written fits. -/
theorem Texture.Written.fits (distinct : (es.map Prod.fst).Nodup) (h : t₀.Written es t) :
    ∀ e ∈ es, Texture.Fits e.1 e.2 := by
  rintro ⟨k, v⟩ mem
  dsimp only [Texture.Fits]
  split
  · exact Says.exists_channel_iff.mp ⟨_, h.channel.told distinct mem⟩
  · exact Says.exists_some_iff.mp ⟨_, h.file.told distinct mem⟩
  · exact Says.exists_some_iff.mp ⟨_, h.localTexture.told distinct mem⟩
  · exact Says.exists_some_iff.mp ⟨_, h.remoteTexture.told distinct mem⟩
  · exact Says.exists_index_iff.mp (Says.exists_some_iff.mp ⟨_, h.bufferIndex.told distinct mem⟩)
  · exact Says.exists_setting_iff.mp (Says.exists_some_iff.mp ⟨_, h.mag.told distinct mem⟩)
  · exact Says.exists_setting_iff.mp (Says.exists_some_iff.mp ⟨_, h.min.told distinct mem⟩)
  · exact Says.exists_setting_iff.mp (Says.exists_some_iff.mp ⟨_, h.wrap.told distinct mem⟩)
  · exact Says.exists_type_iff.mp ⟨_, h.type.told distinct mem⟩
  · exact Says.exists_line_iff.mp (Says.exists_some_iff.mp ⟨_, h.magLine.told distinct mem⟩)
  · exact Says.exists_line_iff.mp (Says.exists_some_iff.mp ⟨_, h.minLine.told distinct mem⟩)
  · exact Says.exists_line_iff.mp (Says.exists_some_iff.mp ⟨_, h.wrapLine.told distinct mem⟩)
  · exact Says.exists_line_iff.mp (Says.exists_some_iff.mp ⟨_, h.typeLine.told distinct mem⟩)
  · trivial

namespace Decode

/-- One entry makes of an input what it says alone. -/
theorem written_putTexture (h : putTexture t k v = .ok t') : t.Written [(k, v)] t' := by
  simp only [Texture.written_iff, Field.singleton_iff]
  unfold putTexture at h
  split at h
  case h_14 =>
    obtain rfl : t = t' := Except.ok.inj h
    simp_all
  all_goals
    obtain ⟨a, ha, ⟨⟩⟩ := bind_eq_ok_iff.mp h
    simp only [channel_eq_ok_iff, path_eq_ok_iff, index_eq_ok_iff, string_eq_ok_iff,
      word_eq_ok_iff, type_eq_ok_iff, line_eq_ok_iff] at ha
    simp [Says.some, ha]

theorem exists_putTexture_iff : (∃ t', putTexture t k v = .ok t') ↔ Texture.Fits k v := by
  unfold putTexture Texture.Fits
  split
  case h_14 =>
    simp only [iff_true]
    exact ⟨t, rfl⟩
  all_goals
    simp only [bind_pure_comp, exists_map_eq_ok_iff, channel_eq_ok_iff, path_eq_ok_iff,
      index_eq_ok_iff, string_eq_ok_iff, word_eq_ok_iff, type_eq_ok_iff, line_eq_ok_iff,
      Says.exists_channel_iff, Says.exists_index_iff, Says.exists_line_iff,
      Says.exists_setting_iff, Says.exists_type_iff, Says.exists_string_iff]

/-- An input comes of a table that fits. -/
theorem exists_textureOfTable_iff : (∃ t, textureOfTable es = .ok t) ↔ Texture.Acceptable es := by
  have each : ∀ e ∈ es, ∀ t, (∃ t', putTexture t e.1 e.2 = .ok t') ↔ Texture.Fits e.1 e.2 :=
    fun e _ t ↦ exists_putTexture_iff
  simp only [textureOfTable, require_eq_ok_iff, exists_and_right, exists_foldlM_eq_ok_iff each]
  exact ⟨fun h ↦ ⟨h.2, h.1⟩, fun h ↦ ⟨h.fits, h.channel⟩⟩

theorem textureOfTable_eq_ok_iff (distinct : (es.map Prod.fst).Nodup) :
    textureOfTable es = .ok t ↔ Texture.OfTable es t := by
  apply eq_ok_iff_of_unique
  · intro t h
    obtain ⟨h, channel⟩ := require_eq_ok_iff.mp h
    refine ⟨written_of_foldlM .nil .cons ?_ distinct h, channel⟩
    exact fun e _ t t' ↦ written_putTexture
  · intro t h
    exact exists_textureOfTable_iff.mpr ⟨h.channel, h.written.fits distinct⟩
  · intro t t' h h'
    exact h.written.unique distinct h'.written

/-- Inputs that are written as tables with no key twice. -/
theorem list_texture_eq_ok_iff {ts : List Texture}
    (rows : Toml.IsTables (fun es ↦ (es.map Prod.fst).Nodup) v) :
    list texture v = .ok ts ↔ Says.tables Texture.OfTable v ts :=
  list_eq_ok_iff_tables (rows.imp fun _ distinct _ ↦ textureOfTable_eq_ok_iff distinct)

theorem exists_list_texture_iff (rows : Toml.IsTables (fun es ↦ (es.map Prod.fst).Nodup) v) :
    (∃ ts, list texture v = .ok ts) ↔ Toml.IsTables Texture.Acceptable v :=
  exists_list_iff (rows.imp fun _ _ ↦ exists_textureOfTable_iff)

end Decode

end

/-! ## Buffers -/

section

variable {es : Table} {b b' b₀ b₁ : Buffer} {k : String} {v : Value}

theorem Buffer.Written.nil (b : Buffer) : b.Written [] b := by
  constructor <;> exact .nil

theorem Buffer.Written.cons (fresh : k ∉ es.map Prod.fst) (h : b.Written [(k, v)] b₁)
    (h' : b₁.Written es b') : b.Written ((k, v) :: es) b' where
  name := h.name.cons fresh h'.name
  file := h.file.cons fresh h'.file
  textures := h.textures.cons fresh h'.textures
  usesSelf := h.usesSelf.cons fresh h'.usesSelf
  selfChannel := h.selfChannel.cons fresh h'.selfChannel
  usesKeyboard := h.usesKeyboard.cons fresh h'.usesKeyboard

/-- One buffer at most is written in a table. -/
theorem Buffer.Written.unique (regular : Regular es) (h : b₀.Written es b)
    (h' : b₀.Written es b') : b = b' := by
  have distinct := regular.distinct
  obtain ⟨⟩ := b
  obtain ⟨⟩ := b'
  congr 1
  · exact h.name.unique distinct (fun _ _ ↦ Says.once_string) h'.name
  · exact h.file.unique distinct (fun _ _ ↦ Says.once_string) h'.file
  · refine h.textures.unique distinct (fun v mem ↦ Says.once_tables ?_) h'.textures
    refine (regular.tables v mem).imp fun es distinct t t' ht ht' ↦ ?_
    exact ht.written.unique distinct ht'.written
  · exact h.usesSelf.unique distinct (fun _ _ ↦ Says.once_boolean) h'.usesSelf
  · exact h.selfChannel.unique distinct (fun _ _ ↦ Says.once_channel) h'.selfChannel
  · exact h.usesKeyboard.unique distinct (fun _ _ ↦ Says.once_boolean) h'.usesKeyboard

/-- What is written fits. -/
theorem Buffer.Written.fits (regular : Regular es) (h : b₀.Written es b) :
    ∀ e ∈ es, Fits e.1 e.2 := by
  have distinct := regular.distinct
  rintro ⟨k, v⟩ mem
  dsimp only [Fits]
  split
  · exact Says.exists_string_iff.mp ⟨_, h.name.told distinct mem⟩
  · exact Says.exists_string_iff.mp ⟨_, h.file.told distinct mem⟩
  · have rows := regular.tables v mem
    have told := (Decode.list_texture_eq_ok_iff rows).mpr (h.textures.told distinct mem)
    exact (Decode.exists_list_texture_iff rows).mp ⟨_, told⟩
  · exact Says.exists_boolean_iff.mp ⟨_, h.usesSelf.told distinct mem⟩
  · exact Says.exists_boolean_iff.mp ⟨_, h.usesKeyboard.told distinct mem⟩
  · exact Says.exists_channel_iff.mp ⟨_, h.selfChannel.told distinct mem⟩
  · trivial

namespace Decode

/-- One entry makes of a buffer what it says alone. -/
theorem written_putBuffer
    (rows : k = "texture" → Toml.IsTables (fun es ↦ (es.map Prod.fst).Nodup) v)
    (h : putBuffer b k v = .ok b') : b.Written [(k, v)] b' := by
  simp only [Buffer.written_iff, Field.singleton_iff]
  unfold putBuffer at h
  split at h
  case h_3 =>
    obtain ⟨ts, hts, ⟨⟩⟩ := bind_eq_ok_iff.mp h
    simp [(list_texture_eq_ok_iff (rows rfl)).mp hts]
  case h_7 =>
    obtain rfl : b = b' := Except.ok.inj h
    simp_all
  all_goals
    obtain ⟨a, ha, ⟨⟩⟩ := bind_eq_ok_iff.mp h
    simp only [channel_eq_ok_iff, path_eq_ok_iff, string_eq_ok_iff, boolean_eq_ok_iff] at ha
    simp [ha]

theorem exists_putBuffer_iff
    (rows : k = "texture" → Toml.IsTables (fun es ↦ (es.map Prod.fst).Nodup) v) :
    (∃ b', putBuffer b k v = .ok b') ↔ Buffer.Fits k v := by
  unfold putBuffer Buffer.Fits
  split
  case h_3 => simp only [bind_pure_comp, exists_map_eq_ok_iff, exists_list_texture_iff (rows rfl)]
  case h_7 =>
    simp only [iff_true]
    exact ⟨b, rfl⟩
  all_goals
    simp only [bind_pure_comp, exists_map_eq_ok_iff, channel_eq_ok_iff, path_eq_ok_iff,
      string_eq_ok_iff, boolean_eq_ok_iff, Says.exists_channel_iff, Says.exists_string_iff,
      Says.exists_boolean_iff]

theorem exists_bufferOfTable_iff (regular : Buffer.Regular es) :
    (∃ b, bufferOfTable es = .ok b) ↔ Buffer.Acceptable es := by
  have each : ∀ e ∈ es, ∀ b, (∃ b', putBuffer b e.1 e.2 = .ok b') ↔ Buffer.Fits e.1 e.2 := by
    rintro ⟨k, v⟩ mem b
    exact exists_putBuffer_iff fun key ↦ regular.tables v (key ▸ mem)
  simp only [bufferOfTable, require_eq_ok_iff, exists_and_right, exists_foldlM_eq_ok_iff each]
  exact ⟨fun h ↦ ⟨h.2, h.1⟩, fun h ↦ ⟨h.fits, h.name⟩⟩

theorem bufferOfTable_eq_ok_iff (regular : Buffer.Regular es) :
    bufferOfTable es = .ok b ↔ Buffer.OfTable es b := by
  apply eq_ok_iff_of_unique
  · intro b h
    obtain ⟨h, name⟩ := require_eq_ok_iff.mp h
    refine ⟨written_of_foldlM .nil .cons ?_ regular.distinct h, name⟩
    rintro ⟨k, v⟩ mem b b'
    exact written_putBuffer fun key ↦ regular.tables v (key ▸ mem)
  · intro b h
    exact (exists_bufferOfTable_iff regular).mpr ⟨h.name, h.written.fits regular⟩
  · intro b b' h h'
    exact h.written.unique regular h'.written

theorem list_buffer_eq_ok_iff {bs : List Buffer} (rows : Toml.IsTables Buffer.Regular v) :
    list buffer v = .ok bs ↔ Says.tables Buffer.OfTable v bs :=
  list_eq_ok_iff_tables (rows.imp fun _ regular _ ↦ bufferOfTable_eq_ok_iff regular)

theorem exists_list_buffer_iff (rows : Toml.IsTables Buffer.Regular v) :
    (∃ bs, list buffer v = .ok bs) ↔ Toml.IsTables Buffer.Acceptable v :=
  exists_list_iff (rows.imp fun _ regular ↦ exists_bufferOfTable_iff regular)

end Decode

end

/-! ## Documents -/

section

variable {es : Table} {d d' d₀ d₁ : Document} {k : String} {v : Value}

theorem Document.Written.nil (d : Document) : d.Written [] d := by
  constructor <;> exact .nil

theorem Document.Written.cons (fresh : k ∉ es.map Prod.fst) (h : d.Written [(k, v)] d₁)
    (h' : d₁.Written es d') : d.Written ((k, v) :: es) d' where
  name := h.name.cons fresh h'.name
  buffers := h.buffers.cons fresh h'.buffers

/-- One document at most is written in a table. -/
theorem Document.Written.unique (regular : Regular es) (h : d₀.Written es d)
    (h' : d₀.Written es d') : d = d' := by
  have distinct := regular.distinct
  obtain ⟨⟩ := d
  obtain ⟨⟩ := d'
  congr 1
  · exact h.name.unique distinct (fun _ _ ↦ Says.once_string.some) h'.name
  · refine h.buffers.unique distinct (fun v mem ↦ Says.once_tables ?_) h'.buffers
    refine (regular.tables v mem).imp fun es regular b b' hb hb' ↦ ?_
    exact hb.written.unique regular hb'.written

/-- What is written fits. -/
theorem Document.Written.fits (regular : Regular es) (h : d₀.Written es d) : Acceptable es := by
  have distinct := regular.distinct
  rintro ⟨k, v⟩ mem
  dsimp only [Fits]
  split
  · exact Says.exists_some_iff.mp ⟨_, h.name.told distinct mem⟩
  · have rows := regular.tables v mem
    have told := (Decode.list_buffer_eq_ok_iff rows).mpr (h.buffers.told distinct mem)
    exact (Decode.exists_list_buffer_iff rows).mp ⟨_, told⟩
  · trivial

namespace Decode

/-- One entry makes of a document what it says alone. -/
theorem written_putDocument (rows : k = "buffer" → Toml.IsTables Buffer.Regular v)
    (h : putDocument d k v = .ok d') : d.Written [(k, v)] d' := by
  simp only [Document.written_iff, Field.singleton_iff]
  unfold putDocument at h
  split at h
  · obtain ⟨s, hs, ⟨⟩⟩ := bind_eq_ok_iff.mp h
    simp [Says.some, string_eq_ok_iff.mp hs]
  · obtain ⟨bs, hbs, ⟨⟩⟩ := bind_eq_ok_iff.mp h
    simp [(list_buffer_eq_ok_iff (rows rfl)).mp hbs]
  · obtain rfl : d = d' := Except.ok.inj h
    simp_all

theorem exists_putDocument_iff (rows : k = "buffer" → Toml.IsTables Buffer.Regular v) :
    (∃ d', putDocument d k v = .ok d') ↔ Document.Fits k v := by
  unfold putDocument Document.Fits
  split
  · simp only [bind_pure_comp, exists_map_eq_ok_iff, string_eq_ok_iff, Says.exists_string_iff]
  · simp only [bind_pure_comp, exists_map_eq_ok_iff, exists_list_buffer_iff (rows rfl)]
  · simp only [iff_true]
    exact ⟨d, rfl⟩

theorem exists_document_iff (regular : Document.Regular es) :
    (∃ d, document es = .ok d) ↔ Document.Acceptable es := by
  rw [Document.Acceptable]
  apply exists_foldlM_eq_ok_iff
  rintro ⟨k, v⟩ mem d
  exact exists_putDocument_iff fun key ↦ regular.tables v (key ▸ mem)

theorem document_eq_ok_iff (regular : Document.Regular es) :
    document es = .ok d ↔ Document.Written {} es d := by
  apply eq_ok_iff_of_unique
  · intro d h
    refine written_of_foldlM .nil .cons ?_ regular.distinct h
    rintro ⟨k, v⟩ mem d d'
    exact written_putDocument fun key ↦ regular.tables v (key ▸ mem)
  · intro d h
    exact (exists_document_iff regular).mpr (h.fits regular)
  · intro d d' h h'
    exact h.unique regular h'

end Decode

end

end ShaderChannels
