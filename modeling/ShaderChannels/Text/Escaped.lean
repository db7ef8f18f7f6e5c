import ShaderChannels.Text.Hidden

/-!
# Escaped text

Text shown inside a message: in double quotes, with quotes, backslashes and characters that cannot
be seen written as escapes.
-/

namespace ShaderChannels.Escaped

/-- A character by its code, in lower-case hexadecimal digits between braces. -/
def byCode (c : Char) : List Char :=
  '\\' :: 'u' :: '{' :: (Nat.toDigits 16 c.toNat ++ ['}'])

/-- A character inside escaped text. -/
def char (c : Char) : List Char :=
  match c with
  | '"' => ['\\', '"']
  | '\\' => ['\\', '\\']
  | '\n' => ['\\', 'n']
  | '\t' => ['\\', 't']
  | '\r' => ['\\', 'r']
  | '\x00' => ['\\', '0']
  | c => if Hidden.isHidden c then byCode c else [c]

/-- A text in double quotes. -/
def quote (s : String) : String := String.ofList ('"' :: (s.toList.flatMap char ++ ['"']))

end ShaderChannels.Escaped
