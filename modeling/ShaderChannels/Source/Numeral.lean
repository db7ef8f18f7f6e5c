import ShaderChannels.Number.Magnitude

/-!
# Numerals

A numeral is a run of decimal digits with at most one point after it and more digits after the
point.  It starts with a digit; a second point ends it.
-/

namespace ShaderChannels.Numeral

/-- The longest numeral at the front, and what follows it. -/
def split (cs : List Char) : List Char × List Char :=
  let whole := cs.takeWhile Char.isDigit
  match cs.dropWhile Char.isDigit with
  | '.' :: r => (whole ++ '.' :: r.takeWhile Char.isDigit, r.dropWhile Char.isDigit)
  | r => (whole, r)

/-- A numeral without a point is whole. -/
def isWhole (cs : List Char) : Bool := !cs.contains '.'

/-- The magnitude nearest to a numeral. -/
def value (cs : List Char) : Magnitude :=
  let fraction := (cs.dropWhile Char.isDigit).drop 1
  Magnitude.ofDecimal (digitsValue (cs.takeWhile Char.isDigit ++ fraction)) (-fraction.length)

/-- A numeral and what follows it make up the text. -/
theorem split_append (cs : List Char) : (split cs).1 ++ (split cs).2 = cs := by
  have h := cs.takeWhile_append_dropWhile (p := Char.isDigit)
  unfold split
  split
  next r hr => rw [hr] at h; simpa [List.takeWhile_append_dropWhile] using h
  next => simp

/-- A numeral that starts with a digit is not empty. -/
theorem split_ne_nil {c : Char} {r : List Char} (h : c.isDigit) : (split (c :: r)).1 ≠ [] := by
  unfold split
  split <;> simp [h]

end ShaderChannels.Numeral
