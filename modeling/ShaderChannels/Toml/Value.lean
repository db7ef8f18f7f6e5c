import ShaderChannels.Number.Layout

/-!
# TOML values

The value a TOML text stands for.  Tables keep their entries in the order in which the text first
writes them down.
-/

namespace ShaderChannels.Toml

/-- A floating-point number with its sign. -/
inductive Real where
  | nan
  | signed (negative : Bool) (x : Magnitude)
deriving DecidableEq, Inhabited

/-- The number as shown in a message, always with a point. -/
def Real.display : Real → String
  | .nan => "NaN"
  | .signed negative x => (if negative then "-" else "") ++ Layout.pointed.write x

/-- A value. -/
inductive Value where
  | string (s : String)
  | integer (n : Int)
  | float (x : Real)
  | boolean (b : Bool)
  /-- A date, a time or both.  What it says is of no use here. -/
  | datetime
  | array (items : List Value)
  | table (entries : List (String × Value))
deriving Inhabited

/-- The entries of a table. -/
abbrev Table := List (String × Value)

/-- The word for the kind of a value. -/
def Value.kind : Value → String
  | .string _ => "string"
  | .integer _ => "integer"
  | .float _ => "float"
  | .boolean _ => "boolean"
  | .datetime => "datetime"
  | .array _ => "array"
  | .table _ => "table"

end ShaderChannels.Toml
