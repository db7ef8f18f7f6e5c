import ShaderChannels.Number.Layout
import Mathlib.Tactic.Ring

/-!
# Whole numbers

A whole number below `2 ^ 53` is a magnitude as it is: its significand is the number with zeros put
behind it up to 53 bits.  No other whole number rounds to it, so the shortest decimal that does is
the number itself, and it is written with its own digits.

* `Magnitude.ofRatio_one` — nothing is rounded off.
* `Shortest.onGrid?_shift` — a multiple of a power of ten rounds to the number only if it is the
  number.
* `isWhole_shortest` — hence the shortest decimal is the number.
* `Layout.plain_write_ofDecimal` — and up to the limit, the numeral of the number is written.
-/

namespace ShaderChannels

variable {n : Nat}

/-! ## Rounding -/

theorem floorLog2_one (pos : 0 < n) : floorLog2 n 1 = n.log2 := by
  have le : 1 <<< n.log2 ≤ n := by
    rw [Nat.one_shiftLeft]
    exact Nat.log2_self_le pos.ne'
  have none : (-(n.log2 : Int)).toNat = 0 := by omega
  have whole : Nat.log2 1 = 0 := by decide
  simp only [floorLog2, whole, Nat.cast_zero, Int.sub_zero, Int.toNat_natCast, none,
    Nat.shiftLeft_zero, if_pos le]

/-- Zeros behind the bits of a number, up to 53 of them, stay below the limit. -/
theorem shiftLeft_log2_lt (lt : n < 2 ^ 53) : n <<< (52 - n.log2) < 2 ^ 53 := by
  rcases Nat.eq_zero_or_pos n with rfl | pos
  · decide
  have bits : n.log2 < 53 := (Nat.log2_lt pos.ne').mpr lt
  calc n <<< (52 - n.log2)
      = n * 2 ^ (52 - n.log2) := Nat.shiftLeft_eq _ _
    _ < 2 ^ (n.log2 + 1) * 2 ^ (52 - n.log2) :=
        Nat.mul_lt_mul_of_pos_right Nat.lt_log2_self (Nat.pow_pos (by decide))
    _ = 2 ^ 53 := by
        rw [← Nat.pow_add]
        congr 1
        omega

/-- A whole number of at most 53 bits is not rounded. -/
theorem Magnitude.ofRatio_one (pos : 0 < n) (lt : n < 2 ^ 53) :
    ofRatio n 1 = .finite (n <<< (52 - n.log2)) (-(52 - n.log2 : Nat)) := by
  have bits : n.log2 < 53 := (Nat.log2_lt pos.ne').mpr lt
  have exponent : max (floorLog2 n 1 - 52) minExponent = -(52 - n.log2 : Nat) := by
    rw [floorLog2_one pos, minExponent]
    omega
  have up : (- -((52 - n.log2 : Nat) : Int)).toNat = 52 - n.log2 := by omega
  have down : (-((52 - n.log2 : Nat) : Int)).toNat = 0 := by omega
  have exact : roundHalfEven (n <<< (52 - n.log2)) (1 <<< 0) = n <<< (52 - n.log2) := by
    rw [Nat.shiftLeft_zero, roundHalfEven_of_dvd (Nat.one_dvd _) Nat.one_pos, Nat.div_one]
  have small : n <<< (52 - n.log2) ≠ 2 * minNormal := (shiftLeft_log2_lt lt).ne
  have finite : ¬ maxExponent < -((52 - n.log2 : Nat) : Int) := by
    rw [maxExponent]
    omega
  simp only [ofRatio, if_neg pos.ne', exponent, up, down, exact, if_neg small, if_neg finite]

/-! ## Grids -/

namespace Shortest

/-- A number with zeros behind its bits, in quarters of their unit. -/
theorem four_mul_shiftLeft (n s : Nat) : 4 * (n <<< s) = n * (4 * 2 ^ s) := by
  rw [Nat.shiftLeft_eq, Nat.mul_left_comm]

/-- On a grid of whole numbers, only the number itself lies in its range. -/
theorem holds_shift (pos : 0 < n) (s k x : Nat) :
    (Range.of (n <<< s) (-s)).holds 1 (k * (4 * 2 ^ s)) x ↔ x * k = n := by
  have wide : 4 ≤ 4 * 2 ^ s := Nat.le_mul_of_pos_right 4 (Nat.pow_pos (by decide))
  have inside : 4 ≤ n * (4 * 2 ^ s) := wide.trans (Nat.le_mul_of_pos_left _ pos)
  -- two whole numbers are at least four quarters apart, and a range goes two quarters either way
  have apart : x * k ≠ n →
      x * k * (4 * 2 ^ s) + 4 ≤ n * (4 * 2 ^ s) ∨ n * (4 * 2 ^ s) + 4 ≤ x * k * (4 * 2 ^ s) := by
    intro other
    rcases Nat.lt_or_gt_of_ne other with below | above
    · have := Nat.mul_le_mul_right (4 * 2 ^ s) below
      rw [Nat.succ_mul] at this
      omega
    · have := Nat.mul_le_mul_right (4 * 2 ^ s) above
      rw [Nat.succ_mul] at this
      omega
  have same : x * k = n → x * k * (4 * 2 ^ s) = n * (4 * 2 ^ s) := congrArg (· * (4 * 2 ^ s))
  simp only [Range.holds, Range.of, four_mul_shiftLeft, ← Nat.mul_assoc x, Nat.mul_one]
  generalize x * k * (4 * 2 ^ s) = p at *
  generalize n * (4 * 2 ^ s) = v at *
  split_ifs <;> simp only [decide_eq_true_eq] <;> omega

/-- A multiple of a power of ten rounds to a whole number only if it is the number. -/
theorem onGrid?_shift (tie : Tie) (pos : 0 < n) (s j : Nat) :
    onGrid? tie (n <<< s) (-s) j = if 10 ^ j ∣ n then some (n / 10 ^ j) else none := by
  have quarter : Nat.pow 10 (-(j : Int)).toNat <<< (-(s : Int) - 2).toNat = 1 := by
    have up : (-(j : Int)).toNat = 0 := by omega
    have down : (-(s : Int) - 2).toNat = 0 := by omega
    rw [up, down]
    rfl
  have unit : Nat.pow 10 (j : Int).toNat <<< (2 - -(s : Int)).toNat = 10 ^ j * (4 * 2 ^ s) := by
    have up : (2 - -(s : Int)).toNat = 2 + s := by omega
    rw [up, Int.toNat_natCast, Nat.shiftLeft_eq, Nat.pow_add]
    rfl
  have floor : 4 * (n <<< s) / (10 ^ j * (4 * 2 ^ s)) = n / 10 ^ j := by
    rw [four_mul_shiftLeft]
    exact Nat.mul_div_mul_right _ _ (Nat.mul_pos (by decide) (Nat.pow_pos (by decide)))
  have next : ¬ (Range.of (n <<< s) (-s)).holds 1 (10 ^ j * (4 * 2 ^ s)) (n / 10 ^ j + 1) := by
    rw [holds_shift pos]
    exact (Nat.lt_mul_of_div_lt (Nat.lt_succ_self _) (Nat.pow_pos (by decide))).ne'
  have here : (Range.of (n <<< s) (-s)).holds 1 (10 ^ j * (4 * 2 ^ s)) (n / 10 ^ j) ↔
      10 ^ j ∣ n := by
    rw [holds_shift pos]
    exact ⟨Dvd.intro_left _, Nat.div_mul_cancel⟩
  rw [onGrid?, quarter, unit]
  simp only [Nat.mul_one, floor, Bool.eq_false_iff.mpr next]
  split_ifs with dvd
  · rw [here.mpr dvd]
  · rw [Bool.eq_false_iff.mpr (mt here.mp dvd)]

end Shortest

/-! ## Digits -/

/-- A number with zeros at its end has the digits of the number without them, and the zeros. -/
theorem toDigits_mul_pow (pos : 0 < n) (k : Nat) :
    Nat.toDigits 10 (n * 10 ^ k) = Nat.toDigits 10 n ++ List.replicate k '0' := by
  induction k with
  | zero => simp
  | succ k ih =>
    have scaled : 0 < n * 10 ^ k := Nat.mul_pos pos (Nat.pow_pos (by decide))
    calc Nat.toDigits 10 (n * 10 ^ (k + 1))
        = Nat.toDigits 10 (10 * (n * 10 ^ k) + 0) := by
          congr 1
          ring
      _ = Nat.toDigits 10 (n * 10 ^ k) ++ Nat.toDigits 10 0 :=
          (Nat.toDigits_append_toDigits (by decide) scaled (by decide)).symm
      _ = Nat.toDigits 10 n ++ List.replicate (k + 1) '0' := by
          rw [ih, Nat.toDigits_zero, List.append_assoc, List.replicate_succ']

namespace Decimal

/-- `d.IsWhole n`: the decimal is the whole number `n`, some zeros of which may be in the
exponent. -/
def IsWhole (d : Decimal) (n : Nat) : Prop :=
  ∃ k : Nat, d.exponent = k ∧ d.digits * 10 ^ k = n

/-- Moving zeros into the exponent does not change the number. -/
theorem isWhole_strip (x j : Nat) : (strip x j).IsWhole (x * 10 ^ j) := by
  induction x using Nat.strongRecOn generalizing j with
  | ind x ih =>
    rw [strip]
    split_ifs with zeros
    · have whole : x / 10 * 10 ^ (j + 1) = x * 10 ^ j := by
        rw [Nat.pow_succ', ← Nat.mul_assoc, Nat.div_mul_cancel (Nat.dvd_of_mod_eq_zero zeros.2)]
      rw [← whole]
      exact ih (x / 10) (Nat.div_lt_self zeros.1 (by decide)) (j + 1)
    · exact ⟨j, rfl, rfl⟩

theorem IsWhole.positional_eq {d : Decimal} (h : d.IsWhole n) (pos : 0 < n) :
    d.positional = Nat.toDigits 10 n := by
  obtain ⟨k, exponent, value⟩ := h
  have digits : 0 < d.digits := by
    rw [← value] at pos
    exact Nat.pos_of_mul_pos_right pos
  have whole : (-(k : Int)).toNat = 0 := by omega
  rw [← value, toDigits_mul_pow digits, positional, exponent, whole, if_pos rfl, Int.toNat_natCast]
  rfl

end Decimal

/-! ## Shortest decimals -/

/-- The first digit of a whole number has the power of ten that its number of digits tells. -/
theorem firstExponent_shift (pos : 0 < n) (s : Nat) :
    Shortest.firstExponent (n <<< s) (1 <<< s) = (digitCount n : Int) - 1 := by
  have unit : 0 < 2 ^ s := Nat.pow_pos (by decide)
  rw [Nat.shiftLeft_eq, Nat.one_shiftLeft, Shortest.firstExponent,
    if_pos (Nat.le_mul_of_pos_left _ pos), Nat.mul_div_cancel _ unit]

namespace Shortest

/-- What is found for `m · 2 ^ e` on the grid that is `i` digits finer than the coarsest one. -/
def found? (tie : Tie) (m : Nat) (e first : Int) (i : Nat) : Option Decimal :=
  (onGrid? tie m e (first - i)).map fun x ↦ Decimal.strip x (first - i)

/-- On a grid with `j` digits left out, a whole number is found if those are zeros, and nothing else
is. -/
theorem found?_shift (tie : Tie) (pos : 0 < n) (s : Nat) {i j : Nat}
    (h : i + j + 1 = digitCount n) :
    found? tie (n <<< s) (-s) ((digitCount n : Int) - 1) i =
      if 10 ^ j ∣ n then some (Decimal.strip (n / 10 ^ j) j) else none := by
  have exponent : (digitCount n : Int) - 1 - i = j := by omega
  rw [found?, exponent, onGrid?_shift tie pos]
  split_ifs
  · rfl
  · rfl

end Shortest

/-- A search that finds something at a place finds it there or before. -/
theorem exists_findSome?_range {α : Type} {f : Nat → Option α} {last m : Nat} (inside : last < m)
    (ends : (f last).isSome) :
    ∃ i ≤ last, ∃ d, f i = some d ∧ (List.range m).findSome? f = some d := by
  obtain ⟨rest, rfl⟩ := Nat.exists_eq_add_of_le (Nat.succ_le_of_lt inside)
  obtain ⟨d, found⟩ : ∃ d, (List.range (last + 1)).findSome? f = some d := by
    rw [← Option.isSome_iff_exists, List.findSome?_isSome_iff]
    exact ⟨last, List.self_mem_range_succ, ends⟩
  obtain ⟨i, hi, here⟩ := List.exists_of_findSome?_eq_some found
  refine ⟨i, Nat.le_of_lt_succ (List.mem_range.mp hi), d, here, ?_⟩
  rw [List.range_add, List.findSome?_append, found, Option.some_or]

/-- Of a whole number the shortest decimal is the number itself. -/
theorem isWhole_shortest (tie : Tie) (pos : 0 < n) (lt : n < 10 ^ 17) (s : Nat) :
    (shortest tie (n <<< s) (-s)).IsWhole n := by
  have most : digitCount n ≤ 17 := (Nat.length_toDigits_le_iff (by decide) (by decide)).mpr lt
  obtain ⟨last, digits⟩ : ∃ last, digitCount n = last + 1 :=
    Nat.exists_eq_add_one.mpr Nat.length_toDigits_pos
  set grids := Shortest.found? tie (n <<< s) (-s) ((digitCount n : Int) - 1)
  have searched : shortest tie (n <<< s) (-s) = ((List.range 17).findSome? grids).getD ⟨0, 0⟩ := by
    have up : (-(s : Int)).toNat = 0 := by omega
    have down : (- -(s : Int)).toNat = s := by omega
    rw [shortest, if_neg (Nat.shiftLeft_pos_iff.mpr pos).ne', up, down, Nat.shiftLeft_zero,
      firstExponent_shift pos]
    rfl
  -- on the grid of the last digit the number is found, so the search ends there or before
  have ends : (grids last).isSome := by
    have unit : 10 ^ 0 ∣ n := Nat.one_dvd n
    have found := Shortest.found?_shift tie pos s (i := last) (j := 0) digits.symm
    rw [if_pos unit] at found
    exact Option.isSome_of_eq_some found
  obtain ⟨i, hi, d, here, found⟩ := exists_findSome?_range (by omega : last < 17) ends
  obtain ⟨j, hj⟩ := Nat.exists_eq_add_of_le hi
  have some := Shortest.found?_shift tie pos s (i := i) (j := j) (by omega)
  obtain ⟨zeros, value⟩ := Option.ite_none_right_eq_some.mp (some.symm.trans here)
  have whole := Decimal.isWhole_strip (n / 10 ^ j) j
  rw [Nat.div_mul_cancel zeros, Option.some.inj value] at whole
  rw [searched, found]
  exact whole

/-! ## Numerals -/

namespace Layout

theorem plain_write_shift (pos : 0 < n) (lt : n < 10 ^ 17) (s : Nat) :
    plain.write (.finite (n <<< s) (-s)) = toString n := by
  have text := (isWhole_shortest .up pos lt s).positional_eq pos
  rw [write, Nat.toString_eq_ofList_toDigits, ← text]
  change String.ofList _ ++ ite _ "" "" = _
  rw [ite_self, String.append_empty]
  rfl

/-- A whole number up to `2 ^ 53` that is read as a magnitude is written as its numeral. -/
theorem plain_write_ofDecimal (le : n ≤ 2 ^ 53) :
    plain.write (.ofDecimal n 0) = toString n := by
  rcases Nat.eq_zero_or_pos n with rfl | pos
  · decide +kernel
  rcases Nat.eq_or_lt_of_le le with rfl | lt
  · -- the limit itself does not have 53 bits
    decide +kernel
  have small : n < 10 ^ 17 := lt.trans (by decide)
  have digits : digitCount n ≤ 17 :=
    (Nat.length_toDigits_le_iff (by decide) (by decide)).mpr small
  have large : ¬ (400 : Int) < digitCount n + 0 := by omega
  have tiny : ¬ (digitCount n + 0 : Int) < -400 := by omega
  rw [Magnitude.ofDecimal, if_neg pos.ne', if_neg large, if_neg tiny]
  change plain.write (.ofRatio (n * 1) 1) = _
  rw [Nat.mul_one, Magnitude.ofRatio_one pos lt, plain_write_shift pos small]

end Layout

end ShaderChannels
