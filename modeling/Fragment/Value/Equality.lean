import Fragment.Value.Convert

/-! The two equalities of the fragment language. -/
namespace Fragment.Value

/-- Whether two values are one and the same array, object, function or promise. -/
def sameReference : Value → Value → Bool
  | .array a, .array b => a == b
  | .object a, .object b => a == b
  | .function a, .function b => a == b
  | .promise a, .promise b => a == b
  | _, _ => false

/-- `===`: equal numbers, texts and truth values, and otherwise the same reference. -/
def strictEquals : Value → Value → Bool
  | .undefined, .undefined => true
  | .bool a, .bool b => a == b
  | .number a, .number b => a.equals b
  | .text a, .text b => a == b
  | a, b => sameReference a b

/-- Whether a value is an array or an object. -/
def isCompound : Value → Bool
  | .array _ | .object _ => true
  | _ => false

/-- A truth value as a number, and other values as they are. -/
def countTruth : Value → Value
  | .bool b => .int (if b then 1 else 0)
  | v => v

/-- `==` between primitive values of different kinds: numbers compare with the numbers that texts
stand for. -/
def looseScalars (a b : Value) : Except Fault Bool :=
  match a, b with
  | .number x, .text t => return x.equals (← numberOfText t)
  | .text t, .number y => return (← numberOfText t).equals y
  | a, b => .ok (a.kind = b.kind && strictEquals a b)

/-- `==`: truth values count as numbers and, beside a primitive value, arrays and objects as their
texts. Values of one kind compare strictly, and `undefined` equals nothing else. -/
def looseEquals (s : Store) (a b : Value) : Except Fault Bool :=
  match a, b with
  | .undefined, .undefined => .ok true
  | .undefined, _ => .ok false
  | _, .undefined => .ok false
  | a, b =>
    if a.kind = b.kind then .ok (strictEquals a b)
    else
      let a := countTruth a
      let b := countTruth b
      if a.isCompound && !b.isCompound then do looseScalars (← toPrimitive s a) b
      else if b.isCompound && !a.isCompound then do looseScalars a (← toPrimitive s b)
      else looseScalars a b

end Fragment.Value
