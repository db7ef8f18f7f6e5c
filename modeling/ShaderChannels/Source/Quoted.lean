/-!
# Quoted text

A quoted text starts at a quote and runs to the next unescaped quote of the same kind, or to the
end.  A backslash takes away the meaning of the character after it and is not part of the value.
`split` finds where the text ends and `decode` reads its value; both start after the opening quote.
-/

namespace ShaderChannels.Quoted

/-- Characters that open and close a quoted text. -/
def isQuote (c : Char) : Bool := c == '\'' || c == '"'

/-- Cuts off everything up to and with the closing quote `q`. -/
def split (q : Char) : List Char → List Char × List Char
  | [] => ([], [])
  | '\\' :: c :: r => (split q r).map ('\\' :: c :: ·) id
  | c :: r => if c = q then ([c], r) else (split q r).map (c :: ·) id

/-- The value of what `split` cuts off.  A backslash at the very end stands for nothing. -/
def decode (q : Char) : List Char → List Char
  | [] => []
  | ['\\'] => []
  | '\\' :: c :: r => c :: decode q r
  | c :: r => if c = q then [] else c :: decode q r

/-- Quoted text and what follows it make up the text. -/
theorem split_append (q : Char) (cs : List Char) : (split q cs).1 ++ (split q cs).2 = cs := by
  fun_induction split q cs <;> simp_all

end ShaderChannels.Quoted
