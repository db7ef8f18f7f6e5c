import ShaderChannels.Proofs.Document.Written

/-!
# Exact decoding

A table is decoded into a document exactly if it is acceptable, into the document that is written in
it, and whatever stands under a key that means nothing has no part in either.

* `Document.bare` — a table without the entries that mean nothing, at every level.
* `Decode.document_bare` — it decodes to the same.
* `Decode.document_exact` — all of this together.
-/

namespace ShaderChannels

open Toml (Value Table)

/-! ## Entries that mean nothing -/

/-- Leaves out the entries of other keys, and changes the values of the rest. -/
def Toml.strip (keys : List String) (within : String → Value → Value) (es : Table) : Table :=
  (es.filter (·.1 ∈ keys)).map fun e ↦ (e.1, within e.1 e.2)

namespace Document

/-- An input without them. -/
def bareTexture : Value → Value
  | .table es => .table (Toml.strip Decode.textureKeys (fun _ v ↦ v) es)
  | v => v

/-- A buffer without them. -/
def bareBuffer : Value → Value
  | .table es => .table (Toml.strip Decode.bufferKeys
      (fun key v ↦ if key = "texture" then v.mapItems bareTexture else v) es)
  | v => v

/-- A document without them. -/
def bare (es : Table) : Table :=
  Toml.strip ["name", "buffer"]
    (fun key v ↦ if key = "buffer" then v.mapItems bareBuffer else v) es

end Document

namespace Decode

variable {σ : Type} {es : Table} {s : σ} {t : Texture} {b : Buffer} {d : Document} {k : String}
  {v : Value}

/-- If entries of other keys do nothing and values do the same after the change, the table does the
same. -/
theorem foldlM_strip (put : σ → String → Value → Except Fault σ) {keys : List String}
    {within : String → Value → Value} (other : ∀ s k v, k ∉ keys → put s k v = .ok s)
    (same : ∀ s k v, put s k (within k v) = put s k v) :
    (Toml.strip keys within es).foldlM (fun s e ↦ put s e.1 e.2) s =
      es.foldlM (fun s e ↦ put s e.1 e.2) s := by
  rw [Toml.strip, List.foldlM_map]
  simp only [same]
  induction es generalizing s with
  | nil => rfl
  | cons e es ih =>
    rw [List.filter_cons, List.foldlM_cons]
    split_ifs with known
    · rw [List.foldlM_cons]
      exact congrArg _ (funext fun s' ↦ ih)
    · rw [ih, other s e.1 e.2 (by simpa using known)]
      rfl

theorem hasKey_strip {keys : List String} {within : String → Value → Value} {key : String}
    (known : key ∈ keys) : hasKey key (Toml.strip keys within es) = hasKey key es := by
  rw [hasKey, hasKey, Toml.strip, List.any_map, List.any_filter]
  congr 1
  funext e
  by_cases same : e.1 = key
  · simp [same, known]
  · simp [same]

/-! ## Levels of a document -/

theorem list_mapItems {α : Type} {item : Value → Except Fault α} {f : Value → Value}
    (same : ∀ v, item (f v) = item v) : list item (v.mapItems f) = list item v := by
  cases v with
  | array vs =>
    show (vs.map f).mapM item = vs.mapM item
    rw [List.mapM_map]
    exact congrArg (vs.mapM ·) (funext same)
  | string | integer | float | boolean | datetime | table => rfl

theorem putTexture_other (other : k ∉ textureKeys) : putTexture t k v = .ok t := by
  unfold putTexture
  split
  case h_14 => rfl
  all_goals exact absurd (by decide) other

theorem putBuffer_other (other : k ∉ bufferKeys) : putBuffer b k v = .ok b := by
  unfold putBuffer
  split
  case h_7 => rfl
  all_goals exact absurd (by decide) other

theorem putDocument_other (other : k ∉ ["name", "buffer"]) : putDocument d k v = .ok d := by
  unfold putDocument
  split
  case h_3 => rfl
  all_goals exact absurd (by decide) other

theorem texture_bare (v : Value) : texture (Document.bareTexture v) = texture v := by
  cases v with
  | table es =>
    show textureOfTable (Toml.strip textureKeys (fun _ v ↦ v) es) = textureOfTable es
    rw [textureOfTable, textureOfTable, hasKey_strip (by decide),
      foldlM_strip putTexture (fun _ _ _ ↦ putTexture_other) fun _ _ _ ↦ rfl]
  | string | integer | float | boolean | datetime | array => rfl

theorem putBuffer_bare (b : Buffer) (k : String) (v : Value) :
    putBuffer b k (if k = "texture" then v.mapItems Document.bareTexture else v) =
      putBuffer b k v := by
  split_ifs with key
  · subst key
    show (do return { b with textures := ← list texture (v.mapItems Document.bareTexture) }) = _
    rw [list_mapItems texture_bare]
    rfl
  · rfl

theorem buffer_bare (v : Value) : buffer (Document.bareBuffer v) = buffer v := by
  cases v with
  | table es =>
    show bufferOfTable (Toml.strip bufferKeys _ es) = bufferOfTable es
    rw [bufferOfTable, bufferOfTable, hasKey_strip (by decide),
      foldlM_strip putBuffer (fun _ _ _ ↦ putBuffer_other) putBuffer_bare]
  | string | integer | float | boolean | datetime | array => rfl

theorem putDocument_bare (d : Document) (k : String) (v : Value) :
    putDocument d k (if k = "buffer" then v.mapItems Document.bareBuffer else v) =
      putDocument d k v := by
  split_ifs with key
  · subst key
    show (do return { d with buffers := ← list buffer (v.mapItems Document.bareBuffer) }) = _
    rw [list_mapItems buffer_bare]
    rfl
  · rfl

/-- Entries of other keys have no influence. -/
theorem document_bare (es : Table) : document (Document.bare es) = document es :=
  foldlM_strip putDocument (fun _ _ _ ↦ putDocument_other) putDocument_bare

/-! ## The theorem -/

/-- **Decoding is exact.**  In a table of the usual shape, a document is found if and only if every
value fits, and it is the one whose fields are what the entries say, and their defaults where there
is no entry.  Tables that are the same except for keys that mean nothing are decoded to the same, be
it a document or a fault. -/
theorem document_exact (regular : Document.Regular es) :
    ((∃ d, document es = .ok d) ↔ Document.Acceptable es) ∧
      (∀ d, document es = .ok d ↔ Document.Written {} es d) ∧
      ∀ es', Document.bare es' = Document.bare es → document es' = document es := by
  refine ⟨exists_document_iff regular, fun d ↦ document_eq_ok_iff regular, fun es' same ↦ ?_⟩
  calc
    document es' = document (Document.bare es') := (document_bare es').symm
    _ = document (Document.bare es) := by rw [same]
    _ = document es := document_bare es

/-- A title, a size and a note mean nothing: the document is read with and without them. -/
theorem document_exact_titled :
    let titled : Table := [("title", .string "Sky"), ("buffer", .array [.table [
      ("name", .string "A"), ("size", .array []), ("texture", .array [.table [
        ("mag", .string "Blur"), ("note", .datetime), ("channel", .integer 3)]])]])]
    let untitled : Table := [("buffer", .array [.table [
      ("name", .string "A"), ("texture", .array [.table [
        ("mag", .string "Blur"), ("channel", .integer 3)]])]])]
    let d : Document :=
      { buffers := [{ name := "A", textures := [{ channel := 3, mag := some .unrecognized }] }] }
    Document.Regular titled ∧
      ((∃ d, document titled = .ok d) ↔ Document.Acceptable titled) ∧
      (document titled = .ok d ↔ Document.Written {} titled d) ∧ document titled = .ok d ∧
      document untitled = document titled := by
  intro titled untitled d
  have regular : Document.Regular titled := by
    refine ⟨by decide, fun v mem ↦ ?_⟩
    obtain rfl := (by simpa [titled] using mem)
    refine ⟨_, rfl, fun x hx ↦ ⟨_, List.mem_singleton.mp hx, by decide, fun v mem ↦ ?_⟩⟩
    obtain rfl := (by simpa using mem)
    exact ⟨_, rfl, fun x hx ↦ ⟨_, List.mem_singleton.mp hx, by decide⟩⟩
  obtain ⟨acceptable, written, bare⟩ := document_exact regular
  exact ⟨regular, acceptable, written d, rfl, bare untitled rfl⟩

/-- The key of a setting may also hold an empty array: a magnification is found although it is
written neither as a string nor as the key of an empty table. -/
theorem document_emptyArray :
    let v : Value := .table [("Nearest", .array [])]
    let es : Table := [("buffer", .array [.table [("name", .string "A"),
      ("texture", .array [.table [("channel", .integer 0), ("mag", v)]])]])]
    document es =
        .ok { buffers := [{ name := "A", textures := [{ channel := 0, mag := some .nearest }] }] } ∧
      ¬ (Toml.IsString v ∨ ∃ w, v = .table [(w, .table [])]) := by
  intro v es
  refine ⟨rfl, ?_⟩
  rintro (⟨s, h⟩ | ⟨w, h⟩)
  · exact Value.noConfusion h
  · simp [v] at h

end Decode

end ShaderChannels
