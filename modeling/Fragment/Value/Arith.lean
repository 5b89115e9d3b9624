import Fragment.Value.Convert

/-! Operators of the fragment language on values of any kind. -/
namespace Fragment.Value

/-- Joins the texts of two values. -/
def concat (s : Store) (left right : Value) : Except Fault String := do
  let left ← toText s (← toPrimitive s left)
  let right ← toText s (← toPrimitive s right)
  return left ++ right

/-- Adds numbers; if either operand is a text, joins texts. -/
def add (s : Store) (left right : Value) : Except Fault Value := do
  let left ← toPrimitive s left
  let right ← toPrimitive s right
  match left, right with
  | .text a, b => return .text (a ++ (← toText s b))
  | a, .text b => return .text ((← toText s a) ++ b)
  | a, b =>
    let a ← toNumber s a
    let b ← toNumber s b
    return .number (← a.add b)

/-- The quotient as a double; division by zero gives an infinity or NaN. -/
def divide (s : Store) (left right : Value) : Except Fault Float := do
  let a ← (← toNumber s left).toFloat
  let b ← (← toNumber s right).toFloat
  return a / b

/-- The remainder, with the sign of the dividend. -/
def remainder (s : Store) (left right : Value) : Except Fault Number := do
  let a ← toNumber s left
  let b ← toNumber s right
  if (← a.isNaN) then return Number.nan
  if (← b.isNaN) then return Number.nan
  if (← a.isInfinite) then return Number.nan
  if b.isZero then return Number.nan
  if (← b.isInfinite) then return a
  match a, b with
  | .int m, .int n => return .int (Int.tmod m n)
  | a, b => return .float (Double.floatRemainder (← a.toFloat) (← b.toFloat))

/-- Whether a number is an odd integer. -/
def isOdd : Number → Bool
  | .int n => n % 2 ≠ 0
  | .float x => match Double.floatKind x with
    | .finite b => b.isInteger && b.truncate % 2 ≠ 0
    | _ => false

/-- The power: exact for small integers, otherwise the power of doubles. -/
def power (s : Store) (left right : Value) : Except Fault Number := do
  let base ← toNumber s left
  let exponent ← toNumber s right
  if (← exponent.isNaN) then return Number.nan
  if exponent.isZero then return .int 1
  if (← base.isNaN) then return Number.nan
  if base.abs.equals (.int 1) then
    if (← exponent.isInfinite) then return Number.nan
  let exact : Option Int := match base, exponent with
    | .int b, .int e =>
      if 0 ≤ e ∧ e ≤ 1074 then
        let result := Int.pow b e.toNat
        if result.natAbs ≤ Nat.pow 2 53 then some result else none
      else none
    | _, _ => none
  match exact with
  | some result => return .int result
  | none =>
    if base.isZero && exponent.isBelowZero then
      return Number.infinity (isOdd exponent && base.hasMinus)
    let b ← base.toFloat
    let e ← exponent.toFloat
    let result := b.pow e
    -- The sign of an overflow follows the exponent itself, which need not be a double.
    if Double.isInfinite result && !Double.isInfinite b && !Double.isInfinite e then
      return Number.infinity (base.isBelowZero && isOdd exponent)
    return .float result

end Fragment.Value
