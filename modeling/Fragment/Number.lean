import Fragment.Double.Layout
import Fragment.Fault

/-! Numbers of running code: unbounded integers beside doubles.
Integer arithmetic is exact. As soon as one operand is a double the other is converted, which
fails for integers beyond the range of doubles; comparison never converts and is exact. -/
namespace Fragment

/-- An integer or a double. -/
inductive Number where
  | int (n : Int)
  | float (x : Float)

namespace Number

def nan : Number := .float Double.nan

def infinity (negative : Bool) : Number := .float (Double.infinity negative)

/-- The nearest double. -/
def toFloat : Number → Except Fault Float
  | .int n => match Double.ofInt? n with
    | some x => .ok x
    | none => .error .overflow
  | .float x => .ok x

/-- Whether the number is NaN, which no integer is; an integer has to be within the range of doubles. -/
def isNaN : Number → Except Fault Bool
  | .int n => do
    let _ ← (Number.int n).toFloat
    return false
  | .float x => .ok (Double.isNaN x)

/-- Whether the number is infinite; an integer has to be within the range of doubles. -/
def isInfinite (n : Number) : Except Fault Bool := return Double.isInfinite (← n.toFloat)

/-- Exact comparison; nothing compares with NaN. -/
def compare? : Number → Number → Option Ordering
  | .int a, .int b => some (compare a b)
  | .float a, .float b =>
    if a < b then some .lt else if b < a then some .gt else if a == b then some .eq else none
  | .int a, .float b => match Double.floatKind b with
    | .nan => none
    | .infinite negative => some (if negative then .gt else .lt)
    | .finite v => some (Double.Binary.compareInt a v)
  | .float a, .int b => match Double.floatKind a with
    | .nan => none
    | .infinite negative => some (if negative then .lt else .gt)
    | .finite v => some (Double.Binary.compareInt b v).swap

def equals (a b : Number) : Bool := a.compare? b == some .eq

def less (a b : Number) : Bool := a.compare? b == some .lt

def isZero (n : Number) : Bool := n.equals (.int 0)

/-- Whether the number is below zero. -/
def isBelowZero (n : Number) : Bool := n.less (.int 0)

/-- Whether the sign bit of the number's double is set. -/
def hasMinus : Number → Bool
  | .int n => n < 0
  | .float x => Double.isNegative x

/-- An operation that is exact on integers and rounds on doubles. -/
def arith (ints : Int → Int → Int) (floats : Float → Float → Float) : Number → Number → Except Fault Number
  | .int a, .int b => .ok (.int (ints a b))
  | a, b => return .float (floats (← a.toFloat) (← b.toFloat))

def add : Number → Number → Except Fault Number := arith (· + ·) (· + ·)

def sub : Number → Number → Except Fault Number := arith (· - ·) (· - ·)

def mul : Number → Number → Except Fault Number := arith (· * ·) (· * ·)

def negate : Number → Number
  | .int n => .int (-n)
  | .float x => .float (-x)

def abs : Number → Number
  | .int n => .int n.natAbs
  | .float x => .float x.abs

/-- The number as the fragment language prints it. Integers below `10 ^ 21` print all their digits,
larger ones as the nearest double. -/
def sourceText : Number → Except Fault String
  | .int n => if n.natAbs < Nat.pow 10 21 then .ok (toString n) else return Double.sourceText (← (Number.int n).toFloat)
  | .float x => .ok (Double.sourceText x)

/-- Whether all digits of the number can be written: an integer may have 4300 of them. -/
def isWritable : Number → Bool
  | .int n => n.natAbs < Nat.pow 10 4300
  | .float _ => true

/-- What the writing of any other number gives. -/
def tooLong : Fault := .value "Exceeds the limit (4300 digits) for integer string conversion"

/-- The number as code spells it: integral doubles below `2 ^ 53` are integers there. -/
def spelled : Number → Number
  | .int n => .int n
  | .float x => match Double.floatKind x with
    | .finite b => if b.isInteger && b.truncate.natAbs < Nat.pow 2 53 then .int b.truncate else .float x
    | _ => .float x

/-- The number as a value is spelled. -/
def valueText : Number → String
  | .int n => toString n
  | .float x => Double.valueText x

/-- The number as an integer if it is one, and unchanged otherwise. -/
def normalize : Number → Number
  | .int n => .int n
  | .float x => if Double.isIntegral x then match Double.truncate? x with
      | some n => .int n
      | none => .float x
    else .float x

/-- What tells apart the numbers that `normalize` gives: the integer, or the bits of the double. -/
def key : Number → Option UInt64 × Int
  | .int n => (none, n)
  | .float x => (some x.toBits, 0)

end Number

/-- A truncated number: an integer or an infinity. -/
inductive Whole where
  | finite (n : Int)
  | infinite (negative : Bool)

namespace Whole

/-- The number between `0` and `length` that is nearest. -/
def clamp (w : Whole) (length : Nat) : Nat :=
  match w with
  | .finite n => min n.toNat length
  | .infinite negative => if negative then 0 else length

def less (w : Whole) (n : Int) : Bool :=
  match w with
  | .finite m => m < n
  | .infinite negative => negative

def greater (w : Whole) (n : Int) : Bool :=
  match w with
  | .finite m => n < m
  | .infinite negative => !negative

/-- The position that a count from the end, if negative, stands for. -/
def relative (w : Whole) (length : Nat) : Nat :=
  match w with
  | .finite n => if n < 0 then (length + n).toNat else min n.toNat length
  | .infinite negative => if negative then 0 else length

def isInfinite : Whole → Bool
  | .finite _ => false
  | .infinite _ => true

/-- The integer; an infinity has none. -/
def toInt : Whole → Except Fault Int
  | .finite n => .ok n
  | .infinite _ => .error .overflow

end Whole

end Fragment
