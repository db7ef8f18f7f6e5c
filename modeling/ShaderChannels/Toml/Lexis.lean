import ShaderChannels.Toml.Value

/-!
# The lexis of TOML

Blanks, comments, strings and keys.  A reader takes what it reads off the front of a text and
returns the rest; it has no answer where the text does not follow the grammar.  Line ends have
been brought to the form of one line feed before (`joinLineEnds`).
-/

namespace ShaderChannels.Toml

/-- Takes something off the front of a text. -/
abbrev Reader (α : Type) := List Char → Option (α × List Char)

/-- Writes every line end as a line feed.  A carriage return that ends no line is refused. -/
def joinLineEnds : List Char → Option (List Char)
  | [] => some []
  | '\r' :: '\n' :: r => ('\n' :: ·) <$> joinLineEnds r
  | c :: r => if c == '\r' then none else (c :: ·) <$> joinLineEnds r

/-- Blanks within a line. -/
def isBlank (c : Char) : Bool := c == ' ' || c == '\t'

/-- Characters that may stand for themselves: all but control characters, and the tab. -/
def isPlain (c : Char) : Bool := c == '\t' || (32 ≤ c.toNat && c.toNat != 127)

/-- Characters of a key without quotes. -/
def isBare (c : Char) : Bool := c.isAlphanum || c == '_' || c == '-'

/-- Drops blanks. -/
def skipBlank (cs : List Char) : List Char := cs.dropWhile isBlank

/-- Takes a given word off the front. -/
def strip? (word cs : List Char) : Option (List Char) :=
  if word.isPrefixOf cs then some (cs.drop word.length) else none

/-- Drops blanks, line ends and comments, where `inComment` says that a comment is open. -/
def skipGap (inComment : Bool) : List Char → Option (List Char)
  | [] => some []
  | c :: r =>
    if inComment then
      if c == '\n' then skipGap false r else if isPlain c then skipGap true r else none
    else if isBlank c || c == '\n' then skipGap false r
    else if c == '#' then skipGap true r
    else some (c :: r)

/-- Drops what may follow a statement on its line, and the line end. -/
def skipLineEnd (cs : List Char) : Option (List Char) :=
  let cs := skipBlank cs
  let cs := if cs.head? == some '#' then cs.dropWhile isPlain else cs
  match cs with
  | [] => some []
  | '\n' :: r => some r
  | _ => none

/-- The value of a hexadecimal digit. -/
def hexValue? (c : Char) : Option Nat :=
  if c.isDigit then some (c.toNat - '0'.toNat)
  else if 'a' ≤ c && c ≤ 'f' then some (c.toNat - 'a'.toNat + 10)
  else if 'A' ≤ c && c ≤ 'F' then some (c.toNat - 'A'.toNat + 10)
  else none

/-- The character with a code written in hexadecimal digits; codes of no character are refused. -/
def charOfHex? (ds : List Char) : Option Char := do
  let n ← ds.foldlM (fun n c ↦ (16 * n + ·) <$> hexValue? c) 0
  if n.isValidChar then some (Char.ofNat n) else none

/-- The character a one-letter escape stands for. -/
def escape? : Char → Option Char
  | 'b' => some '\x08'
  | 't' => some '\t'
  | 'n' => some '\n'
  | 'f' => some '\x0c'
  | 'r' => some '\r'
  | '"' => some '"'
  | '\\' => some '\\'
  | _ => none

/-- Puts a character before what a reader read. -/
def before (c : Char) (read : Option (List Char × List Char)) : Option (List Char × List Char) :=
  read.map fun p ↦ (c :: p.1, p.2)

/-- A string in double quotes, after the opening quote. -/
def basicString : Reader (List Char)
  | [] => none
  | '"' :: r => some ([], r)
  | '\\' :: 'u' :: a :: b :: c :: d :: r =>
    (charOfHex? [a, b, c, d]).bind (before · (basicString r))
  | '\\' :: 'U' :: a :: b :: c :: d :: e :: f :: g :: h :: r =>
    (charOfHex? [a, b, c, d, e, f, g, h]).bind (before · (basicString r))
  | '\\' :: c :: r => (escape? c).bind (before · (basicString r))
  | c :: r => if isPlain c then before c (basicString r) else none

/-- A string in three double quotes, after the opening quotes.  Up to two quotes may stand before
the closing ones.  A backslash at the end of a line drops the line end and all blanks and line
ends after it; `trim` says that this is going on. -/
def longBasicString (trim : Bool) : Reader (List Char)
  | [] => none
  | '"' :: '"' :: '"' :: '"' :: '"' :: r => some (['"', '"'], r)
  | '"' :: '"' :: '"' :: '"' :: r => some (['"'], r)
  | '"' :: '"' :: '"' :: r => some ([], r)
  | '\\' :: 'u' :: a :: b :: c :: d :: r =>
    (charOfHex? [a, b, c, d]).bind (before · (longBasicString false r))
  | '\\' :: 'U' :: a :: b :: c :: d :: e :: f :: g :: h :: r =>
    (charOfHex? [a, b, c, d, e, f, g, h]).bind (before · (longBasicString false r))
  | '\\' :: c :: r =>
    if (skipBlank (c :: r)).head? == some '\n' then longBasicString true (c :: r)
    else (escape? c).bind (before · (longBasicString false r))
  | c :: r =>
    if trim && (isBlank c || c == '\n') then longBasicString true r
    else if isPlain c || c == '\n' then before c (longBasicString false r)
    else none

/-- A string in single quotes, after the opening quote.  All characters stand for themselves. -/
def literalString : Reader (List Char)
  | [] => none
  | c :: r =>
    if c == '\'' then some ([], r)
    else if isPlain c then before c (literalString r)
    else none

/-- A string in three single quotes, after the opening quotes.  Up to two quotes may stand before
the closing ones. -/
def longLiteralString : Reader (List Char)
  | [] => none
  | '\'' :: '\'' :: '\'' :: '\'' :: '\'' :: r => some (['\'', '\''], r)
  | '\'' :: '\'' :: '\'' :: '\'' :: r => some (['\''], r)
  | '\'' :: '\'' :: '\'' :: r => some ([], r)
  | c :: r => if isPlain c || c == '\n' then before c (longLiteralString r) else none

/-- Drops the line end right after the opening quotes of a long string. -/
def skipFirstLineEnd : List Char → List Char
  | '\n' :: r => r
  | cs => cs

/-- A string of any of the four kinds. -/
def anyString : Reader String := fun cs ↦ do
  let (s, r) ← match cs with
    | '"' :: '"' :: '"' :: r => longBasicString false (skipFirstLineEnd r)
    | '"' :: r => basicString r
    | '\'' :: '\'' :: '\'' :: r => longLiteralString (skipFirstLineEnd r)
    | '\'' :: r => literalString r
    | _ => none
  return (String.ofList s, r)

/-- One part of a key. -/
def simpleKey : Reader String := fun cs ↦ do
  let (s, r) ← match cs with
    | '"' :: r => basicString r
    | '\'' :: r => literalString r
    | cs => if (cs.takeWhile isBare).isEmpty then none else some (cs.span isBare)
  return (String.ofList s, r)

/-- The parts of a dotted key, with the blanks around them. -/
def dottedKey (cs : List Char) : Option (List String × List Char) :=
  match simpleKey (skipBlank cs) with
  | none => none
  | some (k, r) =>
    match skipBlank r with
    | '.' :: r => if r.length < cs.length then (dottedKey r).map fun p ↦ (k :: p.1, p.2) else none
    | r => some ([k], r)
termination_by cs.length

/-- A key may have fewer parts than this, and values may be nested less deep. -/
def depthLimit : Nat := 80

/-- A key. -/
def key : Reader (List String) := fun cs ↦
  (dottedKey cs).filter fun p ↦ p.1.length < depthLimit

end ShaderChannels.Toml
