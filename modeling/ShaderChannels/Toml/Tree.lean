import ShaderChannels.Toml.Value

/-!
# Growing a TOML document

A TOML text adds to its document step by step: a key takes a value, a header opens a table or a
further table of an array.  Whether a step is allowed depends on how the tables on its way came to
be, which a finished value no longer tells; so the document is grown as a tree of nodes that
remember.

* A value that is written out is closed: nothing can be added to it.
* A table that a header names is closed to dotted keys from elsewhere and to a second header.
* A table that stands only on the way of a header may still get its own header, which moves it
  behind the tables opened so far.
* A table that stands on the way of a dotted key may get more dotted keys, and no header.
-/

namespace ShaderChannels.Toml

/-- How a table came to be. -/
inductive Origin where
  /-- A header names it, or it is the whole document or a member of an array. -/
  | header
  /-- It stands on the way of a header. -/
  | implied
  /-- It stands on the way of a dotted key. -/
  | dotted
deriving DecidableEq

/-- A part of a growing document. -/
inductive Node where
  /-- A value that is written out. -/
  | value (v : Value)
  | table (origin : Origin) (entries : List (String × Node))
  /-- An array whose members are opened by headers; the last one is open. -/
  | array (items : List (List (String × Node)))

/-- The entries of a growing table. -/
abbrev Entries := List (String × Node)

namespace Node

mutual

/-- The value of a finished node. -/
def finish : Node → Value
  | .value v => v
  | .table _ es => .table (finishEntries es)
  | .array items => .array (finishItems items)

/-- The entries of a finished table. -/
def finishEntries : List (String × Node) → Table
  | [] => []
  | (k, n) :: es => (k, n.finish) :: finishEntries es

/-- The members of a finished array. -/
def finishItems : List (List (String × Node)) → List Value
  | [] => []
  | es :: items => .table (finishEntries es) :: finishItems items

end

end Node

namespace Entries

/-- The node of a key. -/
def get? (key : String) (es : Entries) : Option Node := List.lookup key es

/-- Puts another node in the place of a key. -/
def replace (key : String) (n : Node) (es : Entries) : Entries :=
  es.map fun e ↦ if e.1 == key then (key, n) else e

/-- Takes a key out. -/
def remove (key : String) (es : Entries) : Entries := es.filter (·.1 != key)

/-- Follows a path and changes the table it leads to.  Tables that are missing on the way are made
with origin `fresh`; in an array the way leads through its last member.  A way of dotted keys ends
at a table that a header names. -/
def update (fresh : Origin) (change : Origin → Entries → Option Entries) :
    List String → Origin → Entries → Option Entries
  | [], origin, es => change origin es
  | key :: path, _, es =>
    match es.get? key with
    | none => do
      let sub ← update fresh change path fresh []
      return es ++ [(key, .table fresh sub)]
    | some (.value _) => none
    | some (.table origin sub) =>
      if fresh = .dotted ∧ origin = .header then none
      else do
        let sub ← update fresh change path origin sub
        return es.replace key (.table origin sub)
    | some (.array items) => do
      let last ← items.getLast?
      let sub ← update fresh change path .header last
      return es.replace key (.array (items.dropLast ++ [sub]))

/-- Adds a value under a dotted key.  All but the last part of the key lead through dotted tables;
the last part is new there. -/
def put (path : List String) (v : Value) (origin : Origin) (es : Entries) : Option Entries := do
  let key ← path.getLast?
  let add (o : Origin) (es : Entries) : Option Entries :=
    if (path.length != 1 && o != .dotted) || (es.get? key).isSome then none
    else some (es ++ [(key, .value v)])
  update .dotted add path.dropLast origin es

end Entries

/-- A growing document: all that was read, and the way to the table that keys go to. -/
structure Draft where
  root : Entries
  path : List String

namespace Draft

/-- Nothing read yet. -/
def empty : Draft := ⟨[], []⟩

/-- Adds a value to the open table. -/
def put (d : Draft) (key : List String) (v : Value) : Option Draft := do
  let root ← Entries.update .implied (Entries.put key v) d.path .header d.root
  return { d with root }

/-- Opens the table a header names. -/
def openTable (d : Draft) (path : List String) : Option Draft := do
  let key ← path.getLast?
  let add (_ : Origin) (es : Entries) : Option Entries :=
    match es.get? key with
    | none => some (es ++ [(key, .table .header [])])
    | some (.table .implied sub) => some (es.remove key ++ [(key, .table .header sub)])
    | some _ => none
  let root ← Entries.update .implied add path.dropLast .header d.root
  return ⟨root, path⟩

/-- Opens a further member of the array a header names. -/
def openMember (d : Draft) (path : List String) : Option Draft := do
  let key ← path.getLast?
  let add (_ : Origin) (es : Entries) : Option Entries :=
    match es.get? key with
    | none => some (es ++ [(key, .array [[]])])
    | some (.array items) => some (es.replace key (.array (items ++ [[]])))
    | some _ => none
  let root ← Entries.update .implied add path.dropLast .header d.root
  return ⟨root, path⟩

/-- The table a finished document stands for. -/
def finish (d : Draft) : Table := Node.finishEntries d.root

end Draft

end ShaderChannels.Toml
