/-!
# Trivia

Trivia is what separates tokens and carries no meaning: blanks, line comments and block comments.
A backslash counts as a blank, which makes a continued line one line for the reader.  `split` cuts
the longest run of trivia off the front of a text; `split_append` says that it loses nothing.
-/

namespace ShaderChannels.Trivia

/-- Characters that separate tokens. -/
def isBlank (c : Char) : Bool :=
  c == ' ' || c == '\t' || c == '\r' || c == '\n' || c == '\\'

/-- What the place being read lies in. -/
inductive Inside where
  /-- Between comments. -/
  | code
  /-- In a line comment, which takes in the line end that closes it. -/
  | line
  /-- In a block comment, which takes in the marks that close it. -/
  | block
deriving DecidableEq

/-- Cuts trivia off the front, given what the front lies in.  A comment that is never closed runs
to the end of the text. -/
def splitFrom : Inside → List Char → List Char × List Char
  | _, [] => ([], [])
  | .code, '/' :: '/' :: r => (splitFrom .line r).map ('/' :: '/' :: ·) id
  | .code, '/' :: '*' :: r => (splitFrom .block r).map ('/' :: '*' :: ·) id
  | .code, c :: r => if isBlank c then (splitFrom .code r).map (c :: ·) id else ([], c :: r)
  | .line, c :: r => (splitFrom (if c = '\n' then .code else .line) r).map (c :: ·) id
  | .block, '*' :: '/' :: r => (splitFrom .code r).map ('*' :: '/' :: ·) id
  | .block, c :: r => (splitFrom .block r).map (c :: ·) id

/-- Cuts the longest run of trivia off the front of a text. -/
def split (cs : List Char) : List Char × List Char := splitFrom .code cs

/-- Trivia and what follows it make up the text. -/
theorem splitFrom_append (i : Inside) (cs : List Char) :
    (splitFrom i cs).1 ++ (splitFrom i cs).2 = cs := by
  fun_induction splitFrom i cs <;> simp_all

theorem split_append (cs : List Char) : (split cs).1 ++ (split cs).2 = cs :=
  splitFrom_append .code cs

end ShaderChannels.Trivia
