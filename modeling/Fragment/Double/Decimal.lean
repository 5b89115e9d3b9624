import Fragment.Double.Binary

/-! Decimal digits of doubles.
`shortest` gives the fewest digits that read back as the same double, nearest to it among those;
`fixedPlaces` and `leadingDigits` round the exact value to a given precision. -/
namespace Fragment.Double

/-- The positive value `digits * 10 ^ exponent`. -/
structure Decimal where
  digits : Nat
  exponent : Int
  deriving DecidableEq

/-- Moves up to `fuel` trailing zeros from the digits into the exponent. -/
def stripZeros : Nat → Decimal → Decimal
  | 0, d => d
  | fuel + 1, d =>
    if d.digits ≠ 0 ∧ d.digits % 10 = 0 then stripZeros fuel ⟨d.digits / 10, d.exponent + 1⟩ else d

/-- The same value without trailing zeros in its digits. -/
def Decimal.normal (d : Decimal) : Decimal := stripZeros d.digits.log2 d

/-- A positive fraction `num / den`. -/
structure Ratio where
  num : Nat
  den : Nat

/-- The fraction measured in units of `10 ^ unit`. -/
def Ratio.inUnits (r : Ratio) (unit : Int) : Ratio :=
  ⟨r.num * Nat.pow 10 (-unit).toNat, r.den * Nat.pow 10 unit.toNat⟩

/-- Whether the fraction is at least `10 ^ e`. -/
def Ratio.reaches (r : Ratio) (e : Int) : Bool :=
  r.den * Nat.pow 10 e.toNat ≤ r.num * Nat.pow 10 (-e).toNat

/-- Raises a guess of the decimal exponent while the fraction reaches the next power. -/
def raiseExponent (r : Ratio) : Nat → Int → Int
  | 0, e => e
  | fuel + 1, e => if r.reaches (e + 1) then raiseExponent r fuel (e + 1) else e

/-- The `e` with `10 ^ e ≤ r < 10 ^ (e + 1)`. -/
def Ratio.exponent (r : Ratio) : Int :=
  let bits : Int := (r.num.log2 : Int) - r.den.log2
  raiseExponent r 6 ((bits * 30103).fdiv 100000 - 3)

/-- The value of a positive binary fraction. -/
def Binary.ratio (b : Binary) : Ratio := ⟨b.mantissa * Nat.pow 2 b.exponent.toNat, Nat.pow 2 (-b.exponent).toNat⟩

/-- The decimals of `count` digits next to the value that read back as the same double, if any;
of two the nearer, of two equally near ones the even one. `low` and `high` bound the values that
round to the double, and `closed` says whether the bounds do so themselves. -/
def nearestOnGrid? (value low high : Ratio) (closed : Bool) (unit : Int) : Option Decimal :=
  let v := value.inUnits unit
  let l := low.inUnits unit
  let h := high.inUnits unit
  let below := v.num / v.den
  let above := below + 1
  let belowFits := if closed then l.num ≤ below * l.den else l.num < below * l.den
  let aboveFits := if closed then above * h.den ≤ h.num else above * h.den < h.num
  if v.num % v.den = 0 then some ⟨below, unit⟩
  else if belowFits && aboveFits then
    let twice := 2 * (v.num % v.den)
    if twice < v.den || (twice = v.den && below % 2 = 0) then some ⟨below, unit⟩ else some ⟨above, unit⟩
  else if belowFits then some ⟨below, unit⟩
  else if aboveFits then some ⟨above, unit⟩
  else none

/-- The first hit with at least `count` digits, trying `fuel` more counts. -/
def shortestFrom (value low high : Ratio) (closed : Bool) (top : Int) : Nat → Nat → Decimal
  | 0, count => ⟨(value.inUnits (top + 1 - count)).num / (value.inUnits (top + 1 - count)).den, top + 1 - count⟩
  | fuel + 1, count =>
    match nearestOnGrid? value low high closed (top + 1 - count) with
    | some d => d
    | none => shortestFrom value low high closed top fuel (count + 1)

/-- The shortest decimal that reads back as the magnitude of a non-zero binary fraction. -/
def Binary.shortest (b : Binary) : Decimal :=
  let quarter (m : Nat) : Ratio := Binary.ratio ⟨false, m, b.exponent - 2⟩
  let value := quarter (4 * b.mantissa)
  let low := quarter (4 * b.mantissa - if b.mantissa = Nat.pow 2 52 ∧ -1074 < b.exponent then 1 else 2)
  let high := quarter (4 * b.mantissa + 2)
  (shortestFrom value low high (b.mantissa % 2 = 0) value.exponent 17 1).normal

/-- The value of `r` in units of `10 ^ -places`, rounded to nearest with ties to even. -/
def fixedPlaces (r : Ratio) (places : Nat) : Nat :=
  roundDiv (r.num * Nat.pow 10 places) r.den

/-- The value rounded to `count + 1` significant digits. -/
def leadingDigits (r : Ratio) (count : Nat) : Decimal :=
  let top := r.exponent
  let unit := top - count
  let v := r.inUnits unit
  let n := roundDiv v.num v.den
  if n = Nat.pow 10 (count + 1) then ⟨Nat.pow 10 count, unit + 1⟩ else ⟨n, unit⟩

/-- The decimal digits of a number, most significant first. -/
def digitChars (n : Nat) : List Char := (Nat.repr n).toList

end Fragment.Double
