/-! Doubles as exact binary fractions.
A finite double is a mantissa times a power of two. Everything the program needs beyond the
machine operations (reading, printing, exact comparison, conversion of integers) goes through
this view, in exact integer arithmetic. -/
namespace Fragment.Double

/-- The finite value `± mantissa * 2 ^ exponent`. -/
structure Binary where
  negative : Bool
  mantissa : Nat
  exponent : Int

/-- What a double is. -/
inductive FloatKind where
  | nan
  | infinite (negative : Bool)
  | finite (value : Binary)

/-- Takes a double apart. -/
def floatKind (x : Float) : FloatKind :=
  let bits := x.toBits.toNat
  let negative := bits / Nat.pow 2 63 = 1
  let biased : Nat := bits / Nat.pow 2 52 % Nat.pow 2 11
  let fraction : Nat := bits % Nat.pow 2 52
  if biased = 2047 then if fraction = 0 then .infinite negative else .nan
  else if biased = 0 then .finite ⟨negative, fraction, -1074⟩
  else .finite ⟨negative, fraction + Nat.pow 2 52, (biased : Int) - 1075⟩

def isNaN (x : Float) : Bool :=
  match floatKind x with
  | .nan => true
  | _ => false

def isInfinite (x : Float) : Bool :=
  match floatKind x with
  | .infinite _ => true
  | _ => false

/-- The sign bit, which zero has as well. -/
def isNegative (x : Float) : Bool := x.toBits.toNat / Nat.pow 2 63 = 1

/-- The double with this sign, biased exponent and fraction. -/
def ofFields (negative : Bool) (biased fraction : Nat) : Float :=
  Float.ofBits (((if negative then Nat.pow 2 63 else 0) + biased * Nat.pow 2 52 + fraction).toUInt64)

def nan : Float := ofFields false 2047 (Nat.pow 2 51)

def infinity (negative : Bool) : Float := ofFields negative 2047 0

/-- The integer nearest to `num / den`; a tie goes to the even neighbour. -/
def roundDiv (num den : Nat) : Nat :=
  let q := num / den
  let r := num % den
  if 2 * r < den then q
  else if den < 2 * r then q + 1
  else if q % 2 = 0 then q else q + 1

/-- The scale `e` at which `num / den` has a mantissa of 53 bits: `2 ^ 52 ≤ num / den / 2 ^ e < 2 ^ 53`,
or the smallest scale a double has, if that is larger. -/
def binaryScale (num den : Nat) : Int :=
  let guess : Int := (num.log2 : Int) - (den.log2 : Int) - 52
  let fits (e : Int) : Bool := den * Nat.pow 2 (52 + e).toNat ≤ num * Nat.pow 2 (-(52 + e)).toNat
  let exact := if fits guess then guess else guess - 1
  max exact (-1074)

/-- The double nearest to `± num / den`, with ties to the even mantissa and infinity beyond the
largest double. -/
def ofRatio (negative : Bool) (num den : Nat) : Float :=
  if num = 0 || den = 0 then ofFields negative 0 0
  else
    let e := binaryScale num den
    let m := roundDiv (num * Nat.pow 2 (-e).toNat) (den * Nat.pow 2 e.toNat)
    let (m, e) := if m = Nat.pow 2 53 then (Nat.pow 2 52, e + 1) else (m, e)
    if m < Nat.pow 2 52 then ofFields negative 0 m
    else if 971 < e then infinity negative
    else ofFields negative (e + 1075).toNat (m - Nat.pow 2 52)

/-- The double nearest to `± digits * 10 ^ exponent`. Far outside the range of doubles the power
is not computed. -/
def ofDecimal (negative : Bool) (digits : Nat) (exponent : Int) : Float :=
  if digits = 0 then ofFields negative 0 0
  else
    let size : Int := (digits.log2 : Int) * 3 / 10 + exponent
    if 400 < size then infinity negative
    else if size < -400 then ofFields negative 0 0
    else ofRatio negative (digits * Nat.pow 10 exponent.toNat) (Nat.pow 10 (-exponent).toNat)

/-- The double nearest to an integer, if there is one within range. -/
def ofInt? (n : Int) : Option Float :=
  if 1100 < n.natAbs.log2 then none
  else
    let x := ofRatio (n < 0) n.natAbs 1
    if isInfinite x then none else some x

/-- The value cut off towards zero. -/
def Binary.truncate (b : Binary) : Int :=
  let size := b.mantissa * Nat.pow 2 b.exponent.toNat / Nat.pow 2 (-b.exponent).toNat
  if b.negative then -(size : Int) else size

/-- Whether the value is an integer. -/
def Binary.isInteger (b : Binary) : Bool :=
  b.mantissa * Nat.pow 2 b.exponent.toNat % Nat.pow 2 (-b.exponent).toNat = 0

/-- How an integer compares with a binary fraction, exactly. -/
def Binary.compareInt (n : Int) (b : Binary) : Ordering :=
  let size : Int := b.mantissa * Nat.pow 2 b.exponent.toNat
  compare (n * Nat.pow 2 (-b.exponent).toNat) (if b.negative then -size else size)

/-- The integer part of a finite double, cut off towards zero. -/
def truncate? (x : Float) : Option Int :=
  match floatKind x with
  | .finite b => some b.truncate
  | _ => none

/-- Whether a double is finite and has no fraction. -/
def isIntegral (x : Float) : Bool :=
  match floatKind x with
  | .finite b => b.isInteger
  | _ => false

/-- The remainder of the division of two finite doubles that rounds the quotient towards zero; it
has the sign of the dividend and is exact. -/
def floatRemainder (x y : Float) : Float :=
  match floatKind x, floatKind y with
  | .finite a, .finite b =>
    if b.mantissa = 0 then nan
    else
      let e := min a.exponent b.exponent
      let num := a.mantissa * Nat.pow 2 (a.exponent - e).toNat % (b.mantissa * Nat.pow 2 (b.exponent - e).toNat)
      ofRatio a.negative (num * Nat.pow 2 e.toNat) (Nat.pow 2 (-e).toNat)
  | .finite _, .infinite _ => x
  | _, _ => nan

end Fragment.Double
