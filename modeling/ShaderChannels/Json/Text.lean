import ShaderChannels.Number.Layout

/-!
# JSON text

JSON values whose fields keep their order, and two ways to write them: on one line, or with every
member on a line of its own, two spaces deeper than what holds it.  Strings escape quotes,
backslashes and control characters, and nothing else.
-/

namespace ShaderChannels

/-- A JSON value. -/
inductive Json where
  | null
  | bool (b : Bool)
  | nat (n : Nat)
  | number (x : Magnitude)
  | string (s : String)
  | array (items : List Json)
  | object (fields : List (String × Json))
deriving Inhabited

namespace Json

/-- Two lower-case hexadecimal digits. -/
def hexByte (n : Nat) : List Char := [Nat.digitChar (n / 16), Nat.digitChar (n % 16)]

/-- A character inside a JSON string. -/
def escapeChar (c : Char) : List Char :=
  match c with
  | '"' => ['\\', '"']
  | '\\' => ['\\', '\\']
  | '\n' => ['\\', 'n']
  | '\t' => ['\\', 't']
  | '\r' => ['\\', 'r']
  | '\x08' => ['\\', 'b']
  | '\x0c' => ['\\', 'f']
  | c => if c.toNat < 32 then '\\' :: 'u' :: '0' :: '0' :: hexByte c.toNat else [c]

/-- A JSON string. -/
def quote (s : String) : String :=
  String.ofList ('"' :: (s.toList.flatMap escapeChar ++ ['"']))

/-- The value, or nothing written as `null`. -/
def ofOption {α : Type} (f : α → Json) : Option α → Json
  | none => .null
  | some a => f a

/-- A value that has no parts. -/
def scalar : Json → String
  | .bool b => if b then "true" else "false"
  | .nat n => toString n
  | .number x => Layout.json.write x
  | .string s => quote s
  | _ => "null"

mutual

/-- Written on one line without blanks. -/
def compact : Json → String
  | .array items => "[" ++ ",".intercalate (compactItems items) ++ "]"
  | .object fields => "\x7b" ++ ",".intercalate (compactFields fields) ++ "\x7d"
  | j => scalar j

/-- The items of an array. -/
def compactItems : List Json → List String
  | [] => []
  | j :: js => compact j :: compactItems js

/-- The fields of an object. -/
def compactFields : List (String × Json) → List String
  | [] => []
  | (k, j) :: fs => (quote k ++ ":" ++ compact j) :: compactFields fs

end

/-- Members between brackets, each on a line of its own; none at all leaves just the brackets. -/
def block (depth : Nat) (opening closing : String) (members : List String) : String :=
  let line (d : Nat) := "\n" ++ String.ofList (List.replicate (2 * d) ' ')
  if members.isEmpty then opening ++ closing
  else opening ++ ",".intercalate (members.map (line (depth + 1) ++ ·)) ++ line depth ++ closing

mutual

/-- Written with every member on a line of its own. -/
def pretty (depth : Nat) : Json → String
  | .array items => block depth "[" "]" (prettyItems depth items)
  | .object fields => block depth "\x7b" "\x7d" (prettyFields depth fields)
  | j => scalar j

/-- The items of an array. -/
def prettyItems (depth : Nat) : List Json → List String
  | [] => []
  | j :: js => pretty (depth + 1) j :: prettyItems depth js

/-- The fields of an object. -/
def prettyFields (depth : Nat) : List (String × Json) → List String
  | [] => []
  | (k, j) :: fs => (quote k ++ ": " ++ pretty (depth + 1) j) :: prettyFields depth fs

end

end Json

end ShaderChannels
