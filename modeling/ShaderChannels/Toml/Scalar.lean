import ShaderChannels.Toml.Lexis

/-!
# TOML scalars

Numbers, dates and times, truth values and strings.  Digits may be parted by single underscores.
Integers have 64 bits.  A number that is not whole is rounded to the nearest floating-point number;
one too large for that is refused, unless it is negative.
-/

namespace ShaderChannels.Toml

/-- Digits of a class, parted by single underscores, after a first digit. -/
def moreDigits (isDigit : Char → Bool) : List Char → List Char × List Char
  | '_' :: d :: r =>
    if isDigit d then (moreDigits isDigit r).map (d :: ·) id else ([], '_' :: d :: r)
  | c :: r => if isDigit c then (moreDigits isDigit r).map (c :: ·) id else ([], c :: r)
  | [] => ([], [])

/-- One or more digits of a class, parted by single underscores. -/
def digits (isDigit : Char → Bool) : Reader (List Char)
  | c :: r => if isDigit c then some ((moreDigits isDigit r).map (c :: ·) id) else none
  | [] => none

/-- An optional sign: whether there is one and whether it is negative. -/
def sign : List Char → (Bool × Bool) × List Char
  | '+' :: r => ((true, false), r)
  | '-' :: r => ((true, true), r)
  | r => ((false, false), r)

/-- An integer, if it has 64 bits. -/
def integer? (n : Int) : Option Value :=
  if Int64.minValue.toInt ≤ n ∧ n ≤ Int64.maxValue.toInt then some (.integer n) else none

/-- The digits of an integer with a base of its own, after the letter that tells the base. -/
def based (base : Nat) (isDigit : Char → Bool) : Reader Value := fun cs ↦ do
  let (ds, r) ← digits isDigit cs
  let n ← ds.foldlM (fun n c ↦ (base * n + ·) <$> hexValue? c) 0
  return (← integer? n, r)

/-- The exponent of a number, after the letter that opens it. -/
def exponent : Reader Int := fun cs ↦ do
  let ((_, negative), r) := sign cs
  let (ds, r) ← digits Char.isDigit r
  return (if negative then -(digitsValue ds : Int) else digitsValue ds, r)

/-- The number `± whole.fraction · 10 ^ e`, unless it is too large. -/
def real? (negative : Bool) (whole fraction : List Char) (e : Int) : Option Value :=
  let x := Magnitude.ofDecimal (digitsValue (whole ++ fraction)) (e - fraction.length)
  if x = .infinite ∧ !negative then none else some (.float (.signed negative x))

/-- What may follow the whole part of a number: a fraction, an exponent, or neither. -/
def afterWhole (negative : Bool) (whole : List Char) : Reader Value
  | '.' :: r => do
    let (fraction, r) ← digits Char.isDigit r
    let (e, r) ← if r.head? == some 'e' || r.head? == some 'E' then exponent r.tail
      else some (0, r)
    return (← real? negative whole fraction e, r)
  | r => do
    if r.head? == some 'e' || r.head? == some 'E' then
      let (e, r) ← exponent r.tail
      return (← real? negative whole [] e, r)
    else
      let n : Int := digitsValue whole
      return (← integer? (if negative then -n else n), r)

/-- A number.  A whole part of several digits does not start with a zero. -/
def number : Reader Value := fun cs ↦
  let ((signed, negative), r) := sign cs
  match signed, r with
  | _, 'i' :: 'n' :: 'f' :: r => some (.float (.signed negative .infinite), r)
  | _, 'n' :: 'a' :: 'n' :: r => some (.float .nan, r)
  | false, '0' :: 'x' :: r => based 16 (fun c ↦ (hexValue? c).isSome) r
  | false, '0' :: 'o' :: r => based 8 (fun c ↦ '0' ≤ c && c ≤ '7') r
  | false, '0' :: 'b' :: r => based 2 (fun c ↦ c == '0' || c == '1') r
  | _, '0' :: r => afterWhole negative ['0'] r
  | _, r => do
    let (whole, r) ← digits Char.isDigit r
    afterWhole negative whole r

/-- A number of exactly `n` digits. -/
def fixedDigits (n : Nat) : Reader Nat := fun cs ↦
  let ds := cs.take n
  if ds.length = n ∧ ds.all Char.isDigit then some (digitsValue ds, cs.drop n) else none

/-- Number of days of a month. -/
def daysInMonth (year month : Nat) : Nat :=
  if month = 2 then
    if year % 4 = 0 ∧ (year % 100 ≠ 0 ∨ year % 400 = 0) then 29 else 28
  else if month = 4 ∨ month = 6 ∨ month = 9 ∨ month = 11 then 30
  else 31

/-- A date of the calendar. -/
def date (cs : List Char) : Option (List Char) := do
  let (year, r) ← fixedDigits 4 cs
  let r ← strip? ['-'] r
  let (month, r) ← fixedDigits 2 r
  let r ← strip? ['-'] r
  let (day, r) ← fixedDigits 2 r
  if 1 ≤ month ∧ month ≤ 12 ∧ 1 ≤ day ∧ day ≤ daysInMonth year month then some r else none

/-- An hour and a minute. -/
def hourMinute (cs : List Char) : Option (List Char) := do
  let (hour, r) ← fixedDigits 2 cs
  let r ← strip? [':'] r
  let (minute, r) ← fixedDigits 2 r
  if hour < 24 ∧ minute < 60 then some r else none

/-- A time of day; a minute may have a leap second. -/
def time (cs : List Char) : Option (List Char) := do
  let r ← strip? [':'] (← hourMinute cs)
  let (second, r) ← fixedDigits 2 r
  if 60 < second then none
  else match r with
    | '.' :: d :: r => if d.isDigit then some (r.dropWhile Char.isDigit) else none
    | r => some r

/-- Drops the distance from universal time. -/
def skipOffset : List Char → List Char
  | 'Z' :: r | 'z' :: r => r
  | '+' :: r => (hourMinute r).getD ('+' :: r)
  | '-' :: r => (hourMinute r).getD ('-' :: r)
  | r => r

/-- A date, a time, or a date with a time and perhaps its distance from universal time. -/
def datetime : Reader Value := fun cs ↦
  match date cs with
  | none => (time cs).map (.datetime, ·)
  | some r =>
    let timed := match r with
      | 'T' :: s | 't' :: s | ' ' :: s => (time s).map skipOffset
      | _ => none
    some (.datetime, timed.getD r)

/-- A value without parts. -/
def scalar : Reader Value := fun cs ↦
  match cs with
  | 't' :: 'r' :: 'u' :: 'e' :: r => some (.boolean true, r)
  | 'f' :: 'a' :: 'l' :: 's' :: 'e' :: r => some (.boolean false, r)
  | '"' :: _ | '\'' :: _ => (anyString cs).map fun p ↦ (.string p.1, p.2)
  | _ => (datetime cs).or (number cs)

end ShaderChannels.Toml
