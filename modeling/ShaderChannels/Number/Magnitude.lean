/-!
# Magnitudes

A magnitude is what a 64-bit binary floating-point number holds besides its sign: `m · 2 ^ e` with
at most 53 bits in `m`, or infinity.  `ofRatio` rounds a quotient to the nearest magnitude and
`ofDecimal` a decimal; half-way values go to the even significand.  All arithmetic is exact.
-/

namespace ShaderChannels

/-- A 64-bit binary floating-point number without its sign. -/
inductive Magnitude where
  /-- The value `significand · 2 ^ exponent`. -/
  | finite (significand : Nat) (exponent : Int)
  /-- More than every finite value. -/
  | infinite
deriving DecidableEq, Inhabited

/-- The whole number nearest to `num / den`; half-way goes to the even one. -/
def roundHalfEven (num den : Nat) : Nat :=
  let q := num / den
  let r := num % den
  if 2 * r < den then q
  else if den < 2 * r then q + 1
  else if q % 2 = 0 then q else q + 1

/-- A quotient is rounded to itself when it is whole. -/
theorem roundHalfEven_of_dvd {num den : Nat} (h : den ∣ num) (pos : 0 < den) :
    roundHalfEven num den = num / den := by
  have : num % den = 0 := Nat.mod_eq_zero_of_dvd h
  simp [roundHalfEven, this, pos]

/-- The exponent of the largest power of two that is at most `num / den`. -/
def floorLog2 (num den : Nat) : Int :=
  let e : Int := (num.log2 : Int) - den.log2
  if den <<< e.toNat ≤ num <<< (-e).toNat then e else e - 1

/-- Number of decimal digits. -/
def digitCount (n : Nat) : Nat := (Nat.toDigits 10 n).length

/-- The number written by a run of decimal digits. -/
def digitsValue (cs : List Char) : Nat :=
  cs.foldl (fun n c ↦ 10 * n + (c.toNat - '0'.toNat)) 0

theorem digitsValue_eq (cs : List Char) : digitsValue cs = Nat.ofDigitChars 10 cs 0 :=
  Nat.ofDigitChars_eq_foldl.symm

namespace Magnitude

/-- Nothing at all. -/
def zero : Magnitude := .finite 0 (-1074)

/-- The smallest significand of 53 bits.  Smaller ones go with the smallest exponent only. -/
def minNormal : Nat := 0x10000000000000

/-- The smallest exponent of a significand. -/
def minExponent : Int := -1074

/-- The largest exponent of a significand. -/
def maxExponent : Int := 971

/-- The magnitude nearest to `num / den`; half-way goes to the even significand, and what rounds
above the largest finite value is infinite. -/
def ofRatio (num den : Nat) : Magnitude :=
  if num = 0 then zero
  else
    let e := max (floorLog2 num den - 52) minExponent
    let m := roundHalfEven (num <<< (-e).toNat) (den <<< e.toNat)
    let (m, e) := if m = 2 * minNormal then (minNormal, e + 1) else (m, e)
    if maxExponent < e then .infinite else .finite m e

/-- The magnitude nearest to `digits · 10 ^ exponent`.  Values from `10 ^ 400` up are infinite and
values below `10 ^ -400` are zero; they are told apart by their number of digits, so that no power
of ten is larger than the text that asks for it. -/
def ofDecimal (digits : Nat) (exponent : Int) : Magnitude :=
  if digits = 0 then zero
  else if 400 < digitCount digits + exponent then .infinite
  else if digitCount digits + exponent < -400 then zero
  else ofRatio (digits * Nat.pow 10 exponent.toNat) (Nat.pow 10 (-exponent).toNat)

end Magnitude

end ShaderChannels
