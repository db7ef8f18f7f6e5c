import ShaderChannels.Disk.Entry
import ShaderChannels.Document.Decode
import ShaderChannels.Toml.Reader

/-!
# Loading documents

A document is read from a path of a disk, or from the text itself.
-/

namespace ShaderChannels

/-- Why a text is no document. -/
inductive ParseError where
  /-- It is no TOML. -/
  | malformed
  /-- It is TOML of another shape. -/
  | fault (f : Fault)

/-- Why a document cannot be loaded. -/
inductive LoadError where
  /-- There is nothing at the path. -/
  | missing (path : String)
  /-- What is there cannot be read. -/
  | unreadable (e : ReadError)
  | parse (e : ParseError)

namespace LoadError

/-- The wording of an error.  What is wrong with a text is not part of it. -/
def message : LoadError → String
  | .missing path => s!"shader document not found at {path}"
  | .unreadable e => e.message
  | .parse _ => "failed to parse shader document"

end LoadError

namespace Document

/-- The document a text holds. -/
def ofText (text : String) : Except ParseError Document :=
  match Toml.read? text with
  | none => .error .malformed
  | some table =>
    match Decode.document table with
    | .error f => .error (.fault f)
    | .ok d => .ok d

/-- The document a path leads to. -/
def load (disk : Disk) (path : String) : Except LoadError Document :=
  if (disk path).isThere then
    match (disk path).read with
    | .error e => .error (.unreadable e)
    | .ok text => (ofText text).mapError .parse
  else .error (.missing path)

end Document

end ShaderChannels
