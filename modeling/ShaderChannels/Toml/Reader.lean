import ShaderChannels.Toml.Scalar
import ShaderChannels.Toml.Tree

/-!
# Reading TOML

`Toml.read?` reads a whole text of TOML 1.0.  It has no answer where the text does not follow the
grammar, where two statements claim the same place, and where a number does not fit.
-/

namespace ShaderChannels.Toml

/-- The items of an array, after its bracket or a comma. -/
def arrayItems (item : Reader Value) (cs : List Char) : Option (List Value × List Char) :=
  match skipGap false cs with
  | none => none
  | some (']' :: r) => some ([], r)
  | some r =>
    match item r with
    | none => none
    | some (v, r) =>
      match skipGap false r with
      | some (']' :: r) => some ([v], r)
      | some (',' :: r) =>
        if r.length < cs.length then (arrayItems item r).map fun p ↦ (v :: p.1, p.2) else none
      | _ => none
termination_by cs.length

/-- A key, an equals sign and a value. -/
def keyValue (item : Reader Value) : Reader (List String × Value) := fun cs ↦ do
  let (k, r) ← key cs
  let r ← strip? ['='] r
  let (v, r) ← item (skipBlank r)
  return ((k, v), r)

/-- The entries of an inline table, of which there is at least one, after its brace or a comma. -/
def inlineEntries (item : Reader Value) (cs : List Char) :
    Option (List (List String × Value) × List Char) :=
  match keyValue item cs with
  | none => none
  | some (e, r) =>
    match skipBlank r with
    | '}' :: r => some ([e], r)
    | ',' :: r =>
      if r.length < cs.length then (inlineEntries item r).map fun p ↦ (e :: p.1, p.2) else none
    | _ => none
termination_by cs.length

/-- The table that entries make up. -/
def inlineTable? (es : List (List String × Value)) : Option Value := do
  let entries ← es.foldlM (fun t e ↦ Entries.put e.1 e.2 .header t) ([] : Entries)
  return .table (Node.finishEntries entries)

/-- A value with at most so many levels of arrays and inline tables. -/
def value : Nat → Reader Value
  | 0 => scalar
  | depth + 1 => fun cs ↦
    match cs with
    | '[' :: r => (arrayItems (value depth) r).map fun p ↦ (.array p.1, p.2)
    | '{' :: r =>
      match skipBlank r with
      | '}' :: r => some (.table [], r)
      | r => do
        let (es, r) ← inlineEntries (value depth) r
        return (← inlineTable? es, r)
    | _ => scalar cs

/-- One statement and its line end: a key with a value, or a header. -/
def statement (d : Draft) (cs : List Char) : Option (Draft × List Char) :=
  match cs with
  | '[' :: '[' :: r => do
    let (path, r) ← key r
    let r ← skipLineEnd (← strip? [']', ']'] r)
    return (← d.openMember path, r)
  | '[' :: r => do
    let (path, r) ← key r
    let r ← skipLineEnd (← strip? [']'] r)
    return (← d.openTable path, r)
  | cs => do
    let ((path, v), r) ← keyValue (value (depthLimit - 1)) cs
    let r ← skipLineEnd r
    return (← d.put path v, r)

/-- The statements of a text, one after the other. -/
def statements (d : Draft) (cs : List Char) : Option Draft :=
  match skipGap false cs with
  | none => none
  | some [] => some d
  | some r =>
    match statement d r with
    | none => none
    | some (d, r) => if r.length < cs.length then statements d r else none
termination_by cs.length

/-- Drops the mark that some editors put at the start of a text. -/
def skipByteOrderMark : List Char → List Char
  | '\ufeff' :: r => r
  | cs => cs

/-- Reads a TOML text. -/
def read? (text : String) : Option Table := do
  let cs ← joinLineEnds (skipByteOrderMark text.toList)
  return (← statements .empty cs).finish

end ShaderChannels.Toml
