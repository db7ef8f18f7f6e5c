import ShaderChannels.Number.Magnitude

/-!
# Shortest decimals

Many decimals round to the same magnitude.  `shortest` picks the one with the fewest digits and,
among those, the one nearest to the value.  It walks from the coarsest decimal grid to finer ones
and looks at the two neighbours of the value on each: if any point of a grid rounds to the value, so
does one of these two.
-/

namespace ShaderChannels

/-- The decimal `digits · 10 ^ exponent`. -/
structure Decimal where
  /-- All digits, read as one whole number. -/
  digits : Nat
  /-- Power of ten of the last digit. -/
  exponent : Int
deriving DecidableEq

namespace Decimal

/-- Power of ten of the first digit. -/
def leadingExponent (d : Decimal) : Int := d.exponent + digitCount d.digits - 1

/-- Moves trailing zeros into the exponent. -/
def strip (digits : Nat) (exponent : Int) : Decimal :=
  if 0 < digits ∧ digits % 10 = 0 then strip (digits / 10) (exponent + 1) else ⟨digits, exponent⟩
termination_by digits
decreasing_by omega

end Decimal

/-- Where to go from a value half-way between two decimals of the same length. -/
inductive Tie where
  /-- To the larger one. -/
  | up
  /-- To the one whose last digit is even. -/
  | even
deriving DecidableEq

namespace Shortest

/-- Power of ten of the first digit of `num / den`, which is not zero. -/
def firstExponent (num den : Nat) : Int :=
  if den ≤ num then (digitCount (num / den) : Int) - 1
  else -(digitCount ((den + num - 1) / num - 1) : Int)

/-- The decimals that round to `m · 2 ^ e`, as a range on the grid of quarter units
`2 ^ (e - 2)`: its ends, and whether they belong to it. -/
structure Range where
  /-- Lower end. -/
  low : Nat
  /-- Upper end. -/
  high : Nat
  /-- Whether the ends round to the value, which they do when the significand is even. -/
  closed : Bool

/-- The values that round to `m · 2 ^ e`.  Below a power of two the next value is only half a unit
away, unless the exponent is the smallest one. -/
def Range.of (m : Nat) (e : Int) : Range where
  low := if m = Magnitude.minNormal ∧ Magnitude.minExponent < e then 4 * m - 1 else 4 * m - 2
  high := 4 * m + 2
  closed := m % 2 = 0

/-- `x` units of `unit` lie in the range, whose own unit is `quarter`. -/
def Range.holds (r : Range) (quarter unit x : Nat) : Bool :=
  if r.closed then r.low * quarter ≤ x * unit ∧ x * unit ≤ r.high * quarter
  else r.low * quarter < x * unit ∧ x * unit < r.high * quarter

/-- The better of `x` and `x + 1` for the value `v`, all in units of which `unit` make one `x`. -/
def nearer (tie : Tie) (v unit x : Nat) : Nat :=
  if 2 * v < (2 * x + 1) * unit then x
  else if (2 * x + 1) * unit < 2 * v then x + 1
  else match tie with
    | .up => x + 1
    | .even => if x % 2 = 0 then x else x + 1

/-- The multiple of `10 ^ k` that rounds to `m · 2 ^ e`, if one does; of two, the nearer. -/
def onGrid? (tie : Tie) (m : Nat) (e k : Int) : Option Nat :=
  let quarter := Nat.pow 10 (-k).toNat <<< (e - 2).toNat
  let unit := Nat.pow 10 k.toNat <<< (2 - e).toNat
  let r := Range.of m e
  let x := 4 * m * quarter / unit
  match r.holds quarter unit x, r.holds quarter unit (x + 1) with
  | true, true => some (nearer tie (4 * m * quarter) unit x)
  | true, false => some x
  | false, true => some (x + 1)
  | false, false => none

end Shortest

/-- The decimal with the fewest digits that rounds to `m · 2 ^ e`, nearest to it among those.  Of 17
digits there is always one, so the search ends there. -/
def shortest (tie : Tie) (m : Nat) (e : Int) : Decimal :=
  if m = 0 then ⟨0, 0⟩
  else
    let first := Shortest.firstExponent (m <<< e.toNat) (1 <<< (-e).toNat)
    let found := (List.range 17).findSome? fun (n : Nat) ↦
      (Shortest.onGrid? tie m e (first - n)).map fun x ↦ Decimal.strip x (first - n)
    found.getD ⟨0, 0⟩

end ShaderChannels
