import Fragment.Typing.Queries

/-! Values of enumeration members.
A member has the value that its initializer computes from literals and from other members, or one
more than the member before it. -/
namespace Fragment

namespace Number

/-- The power of two doubles. There is none for a finite negative power of zero and beyond the range
of doubles; a fractional power of a negative number is NaN. -/
def floatPower (b e : Float) : Except Fault Number :=
  if b == 0.0 && e < 0.0 && !Double.isInfinite e then .error .division
  else
    let result := b.pow e
    if Double.isInfinite result && !Double.isInfinite b && !Double.isInfinite e then .error .overflow
    else .ok (.float result)

/-- The power: exact for an integer to a natural power, otherwise that of doubles. -/
def exactPower : Number → Number → Except Fault Number
  | .int b, .int e => if 0 ≤ e then .ok (.int (Int.pow b e.toNat)) else do
      floatPower (← (Number.int b).toFloat) (← (Number.int e).toFloat)
  | a, b => do floatPower (← a.toFloat) (← b.toFloat)

/-- The double nearest to a quotient; the divisor is not zero. -/
def quotient : Number → Number → Except Fault Number
  | .int a, .int b =>
    let x := Double.ofRatio ((a < 0) != (b < 0)) a.natAbs b.natAbs
    if Double.isInfinite x then .error .overflow else .ok (.float x)
  | a, b => return .float ((← a.toFloat) / (← b.toFloat))

/-- The remainder of doubles; an infinite dividend has none. -/
def floatModulo (a b : Number) : Except Fault Number := do
  let x ← a.toFloat
  let y ← b.toFloat
  if Double.isInfinite x && !Double.isNaN y then throw (.value "math domain error")
  return .float (Double.floatRemainder x y)

end Number

namespace Typing

open Fragment.Source (Expr BinaryOp UnaryOp EnumMember)

/-- An operator on constants. -/
def constantBinary (op : BinaryOp) (a b : Number) : Option (Except Fault Number) :=
  match op with
  | .add => some (a.add b)
  | .sub => some (a.sub b)
  | .mul => some (a.mul b)
  | .pow => some (a.exactPower b)
  | .rem => some (if b.isZero then .ok Number.nan else a.floatModulo b)
  | .div => some (
    if b.isZero then
      if a.isZero then .ok Number.nan
      else do return Number.infinity (Number.float (← a.toFloat)).hasMinus
    else a.quotient b)
  | _ => none

namespace Queries

open Check

variable (q : Queries)

/-- The value of the member of an enumeration under a name. -/
def memberValue? (enumType : TypeId) (name : String) : Check (Option Number) := do
  match (← form enumType) with
  | .enum members =>
    let s ← get
    return ((members.map s.symbol).find? (·.name = name)).bind (·.enumValue)
  | _ => return none

/-- The value of an initializer, if it is constant; `self` is the enumeration around it. -/
def constantValue (self : SymbolId) (selfType : TypeId) : Expr → Check (Option Number)
  | .number _ value _ => return some value
  | .unary _ op operand => do
    match op with
    | .minus => return (← constantValue self selfType operand).map Number.negate
    | .plus => constantValue self selfType operand
    | _ => return none
  | .binary _ op left right => do
    if (constantBinary op (.int 0) (.int 1)).isNone then return none
    let a ← constantValue self selfType left
    let b ← constantValue self selfType right
    match a, b with
    | some a, some b => match constantBinary op a b with
      | some result => return some (← result)
      | none => return none
    | _, _ => return none
  | .ident _ name => memberValue? selfType name
  | .member _ (.ident _ target) name => do
    match ((← get).scopes[globalScope]?).bind (·.names[target]?) with
    | none => return none
    | some other =>
      if !(← symbol other).flags.meets SymbolFlags.enum then return none
      if other = self then memberValue? selfType name
      else memberValue? (← q.declaredType other) name
  | _ => return none

/-- The value of a member: that of its initializer, or the one that comes next. -/
def initialValue (self : SymbolId) (selfType : TypeId) (next : Number) : Option Expr → Check Number
  | none => return next
  | some e => do
    match (← q.constantValue self selfType e) with
    | some v => return v
    | none =>
      error e.mark .initializerNotConstant
      return next

/-- Adds the members of one declaration to an enumeration. -/
def addEnumMembers (self : SymbolId) (selfType : TypeId) (next : Number) : List EnumMember → Check Unit
  | [] => return
  | .mk mark name init :: rest => do
    let taken ← form selfType
    let s ← get
    let isTaken := match taken with
      | .enum members => members.any fun x => (s.symbol x).name = name
      | _ => false
    if isTaken then
      error mark (.duplicateIdentifier name)
      addEnumMembers self selfType next rest
    else
      let value ← q.initialValue self selfType next init
      let value := value.normalize
      let declaration := Declaration.enumMember (.mk mark name init)
      let x ← newSymbol
        { flags := SymbolFlags.enumMember, name, declarations := [declaration],
          valueDeclaration := some declaration, parent := some self, enumValue := some value }
      let t ← newType
        { flags := TypeFlags.enumLiteral ||| TypeFlags.numberLiteral, form := .enumLiteral value selfType,
          symbol := some x }
      modifySymbol x fun s => { s with type := some t }
      modifyType selfType fun i => { i with form := match i.form with
        | .enum members => .enum (members ++ [x])
        | f => f }
      addEnumMembers self selfType (← value.add (.int 1)) rest

/-- The type that an enumeration declares. -/
def declareEnum (x : SymbolId) : Check TypeId := do
  let t ← newType { flags := TypeFlags.enum, form := .enum [], symbol := some x }
  modifySymbol x fun s => { s with declaredType := some t }
  for d in (← symbol x).declarations do
    match d with
    | .enum _ members => q.addEnumMembers x t (.int 0) members
    | _ => pure ()
  return t

/-- The object that an enumeration is as a value. -/
def enumObject (x : SymbolId) : Check TypeId := do
  let enumType ← q.declaredType x
  let members ← match (← form enumType) with
    | .enum members => pure members
    | _ => pure []
  let s ← get
  newType
    { flags := TypeFlags.object, form := .anonymous { isEnumObject := true }, symbol := some x,
      members := some { properties := members.map fun m => ((s.symbol m).name, m) } }

end Queries

end Typing

end Fragment
