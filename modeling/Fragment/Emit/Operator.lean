import Fragment.Emit.Context

/-! Operators of generated code: the plain ones where the types allow them, helpers elsewhere. -/
namespace Fragment.Emit

open Fragment.Source (BinaryOp)
open Fragment.Typing (TypeId TypeFlags)

open Lowering

/-- Whether both types are of one kind. -/
def bothAre (left right : TypeId) (mask : TypeFlags) : Lowering Bool := do
  return (← allParts left mask) && (← allParts right mask)

/-- The sum: plain for numbers, joined texts if one operand is a text. -/
def sum (left right : Target.Expr) (leftType rightType : TypeId) : Lowering Target.Expr := do
  if (← bothAre leftType rightType TypeFlags.numberLike) then return .binary .add left right
  if (← allParts leftType TypeFlags.stringLike) || (← allParts rightType TypeFlags.stringLike) then
    return .helper .concat [left, right]
  return .helper .add [left, right]

/-- A plain operator on numbers; operands of other types are converted first. -/
def onNumbers (op : Target.Operator) (left right : Target.Expr) (leftType rightType : TypeId) : Lowering Target.Expr := do
  if (← bothAre leftType rightType TypeFlags.numberLike) then return .binary op left right
  return .binary op (.helper .toNumber [left]) (.helper .toNumber [right])

/-- Strict equality, or its opposite: plain for operands of one primitive kind. -/
def strictEquality (negated : Bool) (left right : Target.Expr) (leftType rightType : TypeId) : Lowering Target.Expr := do
  let sameKind := (← bothAre leftType rightType TypeFlags.numberLike) ||
    (← bothAre leftType rightType TypeFlags.stringLike) || (← bothAre leftType rightType TypeFlags.booleanLike)
  if sameKind then return .binary (if negated then .notEqual else .equal) left right
  let test : Target.Expr := .helper .strictEquals [left, right]
  return if negated then .not test else test

/-- An operator other than the logical ones. -/
def operator (op : BinaryOp) (left : Target.Expr) (leftType : TypeId) (right : Target.Expr) (rightType : TypeId) :
    Lowering Target.Expr := do
  match op with
  | .add => sum left right leftType rightType
  | .sub => onNumbers .sub left right leftType rightType
  | .mul => onNumbers .mul left right leftType rightType
  | .div => return .helper .divide [left, right]
  | .rem => return .helper .remainder [left, right]
  | .pow => return .helper .power [left, right]
  | .less => return .binary .less left right
  | .greater => return .binary .greater left right
  | .lessEqual => return .binary .lessEqual left right
  | .greaterEqual => return .binary .greaterEqual left right
  | .strictEqual => strictEquality false left right leftType rightType
  | .strictNotEqual => strictEquality true left right leftType rightType
  | .looseEqual => return .helper .looseEquals [left, right]
  | .looseNotEqual => return .not (.helper .looseEquals [left, right])
  | .and | .or => refuse ("cannot emit operator '" ++ op.text ++ "'")

end Fragment.Emit
