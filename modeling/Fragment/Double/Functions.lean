import Fragment.Double.Binary

/-! Elementary functions that the machine's set lacks, to nearly the last bit.
Each is computed in fixed-point arithmetic with far more bits than a double holds and rounded once. -/
namespace Fragment.Double

/-- Bits after the binary point in the fixed-point sums. -/
def fractionBits : Nat := 160

def fixedOne : Int := Nat.pow 2 fractionBits

/-- A finite double in fixed point, cut off. -/
def toFixedPoint (x : Float) : Int :=
  match floatKind x with
  | .finite b =>
    let e := b.exponent + fractionBits
    let size : Int := b.mantissa * Nat.pow 2 e.toNat / Nat.pow 2 (-e).toNat
    if b.negative then -size else size
  | _ => 0

/-- The double nearest to the product of a finite double and a positive fixed-point factor. -/
def timesFixed (x : Float) (factor : Int) : Float :=
  match floatKind x with
  | .finite b =>
    let e := b.exponent - fractionBits
    ofRatio b.negative (b.mantissa * factor.toNat * Nat.pow 2 e.toNat) (Nat.pow 2 (-e).toNat)
  | _ => x

/-- `1 + z / 2 * (1 + z / 3 * (1 + …))`, that is `(exp z - 1) / z`, from the term `n` on. -/
def expSeries (z : Int) : Nat → Nat → Int
  | 0, _ => fixedOne
  | fuel + 1, n => fixedOne + z * expSeries z fuel (n + 1) / ((n + 1 : Nat) * fixedOne)

/-- `exp x - 1`, exact for small `x` as well. -/
def expm1 (x : Float) : Float :=
  match floatKind x with
  | .finite b =>
    if b.mantissa = 0 then x
    else if x.abs < 1.0 then timesFixed x (expSeries (toFixedPoint x) 48 1)
    else x.exp - 1.0
  | .infinite negative => if negative then -1.0 else x
  | .nan => x

/-- `1 + s / 3 + s ^ 2 / 5 + …` from the term `1 / n` on. -/
def atanhSeries (s : Int) : Nat → Nat → Int
  | 0, _ => 0
  | fuel + 1, n => fixedOne / n + s * atanhSeries s fuel (n + 2) / fixedOne

/-- `log (1 + x)`, exact for small `x` as well. -/
def log1p (x : Float) : Float :=
  match floatKind x with
  | .finite b =>
    if b.mantissa = 0 then x
    else if x.abs < 0.5 then
      let f := toFixedPoint x
      let sum := fixedOne + fixedOne + f
      let z := f * fixedOne / sum
      let series := atanhSeries (z * z / fixedOne) 80 1
      timesFixed x (2 * fixedOne * series / sum)
    else
      let y := 1.0 + x
      y.log - ((y - 1.0) - x) / y
  | _ => x.log

/-- The integer nearest to the square root of `n`. -/
def roundSqrt (n : Nat) : Nat :=
  let r := n.log2 / 2
  let start := Nat.pow 2 (r + 1)
  let step (s : Nat) : Nat := if s = 0 then 0 else min s ((s + n / s) / 2)
  let root := Nat.repeat step (r + 8) start
  if root * root + root < n then root + 1 else root

/-- The square root of a sum of squares, without overflow on the way. -/
def hypot (xs : List Float) : Float :=
  if xs.any isInfinite then infinity false
  else if xs.any isNaN then nan
  else
    let least := xs.foldl (fun e x => match floatKind x with
      | .finite b => if b.mantissa = 0 then e else min e b.exponent
      | _ => e) 1000
    let total := xs.foldl (fun sum x => match floatKind x with
      | .finite b => sum + Nat.pow (b.mantissa * Nat.pow 2 (b.exponent - least).toNat) 2
      | _ => sum) 0
    if total = 0 then 0.0
    else
      -- Enough bits are added below for the root to be correct after one more rounding.
      let root := roundSqrt (total * Nat.pow 2 128)
      let e := least - 64
      ofRatio false (root * Nat.pow 2 e.toNat) (Nat.pow 2 (-e).toNat)

end Fragment.Double
