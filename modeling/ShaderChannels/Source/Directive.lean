import ShaderChannels.Source.Lexer

/-!
# Preview directives

A directive is a preprocessor keyword of the source together with the quoted text that directly
follows it, if there is one.  The scan looks one lexeme ahead after each keyword and takes the
lexeme only if it is quoted text.
-/

namespace ShaderChannels

/-- A preview directive of a shader source. -/
structure Directive where
  /-- The word after the `#`. -/
  keyword : String
  /-- Line the directive starts on. -/
  line : Nat
  /-- Where the `#` and the word stand. -/
  span : Span
  /-- The quoted text that follows. -/
  argument : Option String
deriving DecidableEq

namespace Directive

/-- The number written by decimal digits, which may have a plus sign before them, if it fits a byte.
It is given up as soon as it grows too large, whatever follows. -/
def byte? (cs : List Char) : Option UInt8 :=
  let digits := if cs.head? = some '+' then cs.tail else cs
  if digits.isEmpty || !digits.all Char.isDigit then none
  else (go 0 digits).map UInt8.ofNat
where
  /-- Reads on after digits that make up `n`. -/
  go (n : Nat) : List Char → Option Nat
    | [] => some n
    | c :: r =>
      let n := 10 * n + (c.toNat - '0'.toNat)
      if n < 256 then go n r else none

/-- The channel a channel directive names. -/
def channel? (d : Directive) : Option UInt8 :=
  let stem := Word.channelStem.toList
  if stem.isPrefixOf d.keyword.toList then byte? (d.keyword.toList.drop stem.length) else none

/-- The keyword of a token that starts a directive. -/
def keyword? (t : Token) : Option String :=
  if t.kind = .preprocessorKeyword then t.value.text? else none

/-- The quoted text of a token. -/
def argument? (t : Token) : Option String :=
  if t.kind = .string then t.value.text? else none

/-- The directives a lexer still meets. -/
def scan (l : Lexer) : List Directive :=
  if l.atEnd then []
  else match l.next.1.bind keyword? with
    | none => scan l.next.2
    | some keyword =>
      let here := l.next.2
      let argument := here.peek.1.bind argument?
      ⟨keyword, here.lastLine, here.lastSpan, argument⟩ ::
        if argument.isSome then scan here.peek.2.next.2 else scan here.peek.2
termination_by l.work
decreasing_by
  · exact Lexer.work_next_lt (Bool.eq_false_iff.mpr ‹_›)
  · have shown : l.next.2.peek.1.isSome := Option.isSome_of_isSome_bind ‹_›
    exact Nat.lt_trans (Lexer.work_next_lt (Lexer.atEnd_peek shown))
      (Lexer.work_peek_next_lt (Bool.eq_false_iff.mpr ‹_›))
  · exact Lexer.work_peek_next_lt (Bool.eq_false_iff.mpr ‹_›)

/-- The directives of a text. -/
def ofText (text : List Char) : List Directive := scan (.ofText text)

end Directive

end ShaderChannels
