import ShaderChannels.Number.Shortest

/-!
# Number layouts

A layout turns a magnitude into text: the shortest decimal that reads back, written out with a
point or with an exponent.  What differs from one output to another is gathered in one record.
-/

namespace ShaderChannels

namespace Decimal

/-- Digits of a number, most significant first. -/
def digitChars (n : Nat) : List Char := Nat.toDigits 10 n

/-- Written with a point where it is needed and zeros where digits are missing. -/
def positional (d : Decimal) : List Char :=
  let ds := digitChars d.digits
  let fraction := (-d.exponent).toNat
  if fraction = 0 then ds ++ List.replicate d.exponent.toNat '0'
  else if fraction < ds.length then
    ds.take (ds.length - fraction) ++ '.' :: ds.drop (ds.length - fraction)
  else '0' :: '.' :: (List.replicate (fraction - ds.length) '0' ++ ds)

/-- Written with the point after the first digit and the power of ten, sign included, after an
`e`. -/
def scientific (d : Decimal) : List Char :=
  let mantissa := match digitChars d.digits with
    | [] => []
    | [c] => [c]
    | c :: cs => c :: '.' :: cs
  let sign := if d.leadingExponent < 0 then '-' else '+'
  mantissa ++ 'e' :: sign :: digitChars d.leadingExponent.natAbs

end Decimal

/-- How numbers are written. -/
structure Layout where
  /-- What a tie between two shortest decimals goes to. -/
  tie : Tie
  /-- The powers of ten of the first digit, lowest and highest, that are written without an
  exponent; all of them if there is no bound. -/
  bounds : Option (Int × Int)
  /-- What a number without a point gets after its digits. -/
  wholeSuffix : String
  /-- Text of infinity. -/
  infinite : String

namespace Layout

/-- Whether a decimal with this first power of ten is written without an exponent. -/
def isPositional (l : Layout) (e : Int) : Bool :=
  match l.bounds with
  | none => true
  | some (low, high) => low ≤ e && e ≤ high

/-- The text of a magnitude. -/
def write (l : Layout) : Magnitude → String
  | .infinite => l.infinite
  | .finite m e =>
    let d := shortest l.tie m e
    if l.isPositional d.leadingExponent then
      let text := d.positional
      String.ofList text ++ if '.' ∈ text then "" else l.wholeSuffix
    else String.ofList d.scientific

/-- Plain numbers are always written out, whole ones without a point. -/
def plain : Layout := ⟨.up, none, "", "inf"⟩

/-- Pointed numbers are always written out and always show a point. -/
def pointed : Layout := ⟨.up, none, ".0", "inf"⟩

/-- Numbers in JSON are written out from `10 ^ -5` to below `10 ^ 16` and show a point there; there
is no word for infinity. -/
def json : Layout := ⟨.even, some (-5, 15), ".0", "null"⟩

end Layout

end ShaderChannels
