import ShaderChannels.Number.Layout
import ShaderChannels.Source.Numeral
import ShaderChannels.Source.Quoted
import ShaderChannels.Source.Word

/-!
# Tokens

A lexeme is the stretch of characters a token is written with.  `Lexeme.split` cuts the longest
lexeme off the front of a text that starts with no trivia, and `Token.ofLexeme?` reads the token
from the lexeme alone.  Only a `#` with a word that names no preview directive is a lexeme without
a token.
-/

namespace ShaderChannels

/-- Classes of tokens. -/
inductive TokenKind where
  | punctuation
  | operator
  | string
  | integer
  | float
  | identifier
  /-- A `#` with a word that names a preview directive. -/
  | preprocessorKeyword
  /-- A word that sets a texture option. -/
  | keyword
  /-- A scalar or vector type. -/
  | type
  | unknown
deriving DecidableEq, Inhabited

/-- What a token carries. -/
inductive TokenValue where
  | text (s : String)
  | number (x : Magnitude)
deriving DecidableEq, Inhabited

namespace TokenValue

/-- The text carried, if it is one. -/
def text? : TokenValue → Option String
  | .text s => some s
  | .number _ => none

/-- The number carried, if it is one. -/
def number? : TokenValue → Option Magnitude
  | .text _ => none
  | .number x => some x

/-- The value as shown to a reader. -/
def display : TokenValue → String
  | .text s => s
  | .number x => Layout.plain.write x

end TokenValue

/-- A unit of shader source. -/
structure Token where
  kind : TokenKind
  value : TokenValue
deriving DecidableEq, Inhabited

namespace Lexeme

/-- Characters that are operators. -/
def isOperator (c : Char) : Bool := "=*/+-%~&|<>?!^".toList.contains c

/-- Characters that are punctuation. -/
def isPunctuation (c : Char) : Bool := ".,:;()[]\x7b\x7d".toList.contains c

/-- Cuts the longest lexeme off the front. -/
def split : List Char → List Char × List Char
  | [] => ([], [])
  | c :: r =>
    if Quoted.isQuote c then (Quoted.split c r).map (c :: ·) id
    else if c.isDigit then Numeral.split (c :: r)
    else if Word.isStart c || c == '#' then (Word.split r).map (c :: ·) id
    else if c == ':' && r.head? == some ':' then ([':', ':'], r.tail)
    else ([c], r)

/-- A lexeme and what follows it make up the text. -/
theorem split_append (cs : List Char) : (split cs).1 ++ (split cs).2 = cs := by
  fun_cases split cs
  case case1 => rfl
  case case2 => simp [Quoted.split_append]
  case case3 => exact Numeral.split_append _
  case case4 => simp [Word.split_append]
  case case5 c r _ _ _ h => cases r <;> simp_all
  case case6 => rfl

/-- A lexeme of a text that goes on is not empty. -/
theorem split_ne_nil {cs : List Char} (h : cs ≠ []) : (split cs).1 ≠ [] := by
  fun_cases split cs
  case case1 => exact absurd rfl h
  case case3 c r _ hd => exact Numeral.split_ne_nil hd
  all_goals simp

end Lexeme

namespace Token

/-- The class of a word. -/
def wordKind (w : String) : TokenKind :=
  if Word.settings.contains w then .keyword
  else if Word.types.contains w then .type
  else .identifier

/-- The token written by a lexeme. -/
def ofLexeme? : List Char → Option Token
  | [] => none
  | c :: r =>
    if Quoted.isQuote c then some ⟨.string, .text (String.ofList (Quoted.decode c r))⟩
    else if c.isDigit then
      some ⟨if Numeral.isWhole (c :: r) then .integer else .float, .number (Numeral.value (c :: r))⟩
    else if Word.isStart c then
      some ⟨wordKind (String.ofList (c :: r)), .text (String.ofList (c :: r))⟩
    else if c == '#' then
      if Word.isDirective r then some ⟨.preprocessorKeyword, .text (String.ofList r)⟩ else none
    else if Lexeme.isPunctuation c then some ⟨.punctuation, .text (String.ofList (c :: r))⟩
    else if Lexeme.isOperator c then some ⟨.operator, .text (String.ofList (c :: r))⟩
    else some ⟨.unknown, .text (String.ofList (c :: r))⟩

/-- Whether a token is the text `s` of a class. -/
def isText (t : Token) (kind : TokenKind) (s : String) : Bool :=
  t.kind == kind && t.value.text? == some s

end Token

end ShaderChannels
