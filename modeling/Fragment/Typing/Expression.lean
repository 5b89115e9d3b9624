import Fragment.Typing.Bind
import Fragment.Typing.Result

/-! The types of expressions. -/
namespace Fragment.Typing

open Fragment.Source (Mark Expr Property Param TypeNode TypeMember UnaryOp BinaryOp AssignOp Position)

/-- The names by which an expression is known: `a` or `a.b.c`. -/
def namesOf? : Expr → Option String
  | .ident _ name => some name
  | .member _ target name => (namesOf? target).map (· ++ "." ++ name)
  | _ => none

mutual

/-- Whether the type of an argument depends on the parameter that takes it: it holds a function some
parameter of which has no type. -/
def isContextSensitive : Expr → Bool
  | .arrow _ params _ _ _ => params.any (·.type.isNone)
  | .object _ properties => anyPropertySensitive properties
  | .array _ elements => anySensitive elements
  | .conditional _ _ thenBranch otherwise => isContextSensitive thenBranch || isContextSensitive otherwise
  | _ => false

def anySensitive : List Expr → Bool
  | [] => false
  | e :: es => isContextSensitive e || anySensitive es

def anyPropertySensitive : List Property → Bool
  | [] => false
  | .mk _ _ value _ :: ps => isContextSensitive value || anyPropertySensitive ps

end

/-- Whether a signature takes a number of arguments. -/
def Signature.takes (s : Signature) (count : Nat) : Bool :=
  s.least ≤ count && (s.hasRest || count ≤ s.parameters.length)

/-- Whether a position stands before another. -/
def isBefore (a b : Position) : Bool := a.line < b.line || (a.line = b.line && a.column < b.column)

def isArithmetic : BinaryOp → Bool
  | .sub | .mul | .div | .rem | .pow => true
  | _ => false

def isRelational : BinaryOp → Bool
  | .less | .greater | .lessEqual | .greaterEqual => true
  | _ => false

def isEquality : BinaryOp → Bool
  | .strictEqual | .strictNotEqual | .looseEqual | .looseNotEqual => true
  | _ => false

/-- The type of a parameter that nothing tells the type of. -/
def implicitTypeText (rest : Bool) : String := if rest then "any[]" else "any"

namespace Check

def noteType (mark : Mark) (t : TypeId) : Check Unit :=
  modify fun s => { s with nodeTypes := s.nodeTypes.insert mark.id t }

/-- Notes what an access reads; an enumeration member is a constant. -/
def noteProperty (mark : Mark) (x : SymbolId) : Check Unit := do
  let s ← symbol x
  modify fun st => { st with resolvedSymbols := st.resolvedSymbols.insert mark.id x }
  if s.flags.meets SymbolFlags.enumMember then
    match s.enumValue with
    | some v => modify fun st => { st with constants := st.constants.insert mark.id v }
    | none => pure ()

/-- Reports the use of a block variable that stands before the end of its declaration, in the same
function. -/
def checkDeclaredBefore (mark : Mark) (name : String) (x : Symbol) : Check Unit := do
  match x.valueDeclaration with
  | some (.variable d) =>
    if x.flags.meets SymbolFlags.blockVariable then
      let s ← get
      let container (m : Mark) : Option NodeId := (s.container? m).map (·.mark.id)
      if s.fileOf[d.mark.id]? == s.fileOf[mark.id]? && container d.mark == container mark &&
          isBefore mark.extent.start d.mark.extent.stop then
        error mark (.usedBeforeDeclaration name)
  | _ => return

end Check

namespace Queries

open Check

variable (q : Queries)

/-- Reports a value that is not assignable to where it goes, with the reasons. -/
def checkAssignable (source target : TypeId) (mark : Mark) (message : String → String → Message) : Check Bool := do
  if (← q.assignable source target) then return true
  let failure ← q.relate .assignable true source target
  match failure.excess with
  | some (x, wanted) =>
    let s ← symbol x
    let place := (s.declarations.head?).elim mark (·.mark)
    error place (.excessProperty s.name (← q.textOf wanted))
  | none =>
    let left ← q.textOf (← regular source)
    let right ← q.textOf target
    report mark (message left right) failure.notes
  return false

mutual

/-- Looks at a written type and everything in it, so that wrong names are reported. -/
def checkAnnotation (scope : TypeScope) (node : TypeNode) : Check Unit := do
  discard <| q.typeOfNode node scope
  match node with
  | .ref _ _ args => checkAnnotations scope args
  | .array _ element => checkAnnotation scope element
  | .union _ types => checkAnnotations scope types
  | .intersection _ types => checkAnnotations scope types
  | .literal .. => return
  | .function _ params result =>
    checkParamTypes scope params
    checkAnnotation scope result
  | .members _ members => checkMemberTypes scope members

def checkAnnotations (scope : TypeScope) : List TypeNode → Check Unit
  | [] => return
  | t :: ts => do
    checkAnnotation scope t
    checkAnnotations scope ts

def checkParamTypes (scope : TypeScope) : List Param → Check Unit
  | [] => return
  | .mk _ _ type _ _ :: ps => do
    match type with
    | some t => checkAnnotation scope t
    | none => pure ()
    checkParamTypes scope ps

def checkMemberTypes (scope : TypeScope) : List TypeMember → Check Unit
  | [] => return
  | .property _ _ type _ :: ms => do
    checkAnnotation scope type
    checkMemberTypes scope ms
  | .method _ _ params result _ :: ms => do
    checkParamTypes scope params
    match result with
    | some t => checkAnnotation scope t
    | none => pure ()
    checkMemberTypes scope ms
  | .call _ params result :: ms => do
    checkParamTypes scope params
    match result with
    | some t => checkAnnotation scope t
    | none => pure ()
    checkMemberTypes scope ms

end

/-! Names and accesses -/

/-- The type of a name; a constant enumeration can only be accessed. -/
def nameType (mark : Mark) (name : String) (accessed : Bool) : Check TypeId := do
  let scope := (← get).scopeOf.getD mark.id globalScope
  match (← resolve name scope SymbolFlags.value) with
  | none =>
    match (← resolve name scope SymbolFlags.type) with
    | some _ => error mark (.onlyRefersToType name)
    | none => error mark (.cannotFindName name)
    return errorType
  | some x =>
    modify fun s => { s with resolvedSymbols := s.resolvedSymbols.insert mark.id x }
    let s ← symbol x
    if s.flags.meets SymbolFlags.constEnum && !accessed then error mark .constEnumAsValue
    checkDeclaredBefore mark name s
    q.typeOfSymbol x

/-- The type of what is accessed. -/
def accessedType (target : Expr) : Check TypeId := do
  match target with
  | .ident mark name =>
    match (← get).nodeTypes[mark.id]? with
    | some t => return t
    | none =>
      let t ← q.nameType mark name true
      noteType mark t
      return t
  | _ => q.typeOfExpr target none

/-- Reports an access to what may be undefined, and leaves that possibility out. -/
def definedType (t : TypeId) (target : Expr) : Check TypeId := do
  let isVoid ← hasFlag t TypeFlags.voidLike
  if (← containsUndefined t) then
    match isVoid, namesOf? target with
    | false, some text => error target.mark (.namePossiblyUndefined text)
    | _, _ => error target.mark .objectPossiblyUndefined
    let stripped ← removeUndefined t
    return if (← hasFlag stripped TypeFlags.never) then errorType else stripped
  else return t

/-- What an access can see of its target: `inl` is the type of the whole access already. -/
def accessTarget (t : TypeId) (target : Expr) : Check (TypeId ⊕ TypeId) := do
  if (← hasFlag t TypeFlags.any) then return .inl t
  if (← hasFlag t TypeFlags.unknown) then
    error target.mark .objectUnknown
    return .inl errorType
  let defined ← definedType t target
  return if (← hasFlag defined TypeFlags.any) then .inl defined else .inr defined

def memberType (mark : Mark) (target : Expr) (name : String) : Check TypeId := do
  match (← accessTarget (← q.accessedType target) target) with
  | .inl t => return t
  | .inr t =>
    match (← q.property (← q.apparent t) name) with
    | none =>
      error mark (.noSuchProperty name (← q.textOf t))
      return errorType
    | some x =>
      noteProperty mark x
      q.typeOfSymbol x

/-- The type that an index leads to, if there is something there. -/
def indexedType? (mark : Mark) (t indexType : TypeId) : Check (Option TypeId) := do
  match (← form indexType) with
  | .literal (.text key) _ =>
    match (← q.property (← q.apparent t) key) with
    | some x =>
      noteProperty mark x
      return some (← q.typeOfSymbol x)
    | none => return none
  | _ =>
    if (← hasFlag indexType TypeFlags.any) || (← allParts indexType TypeFlags.numberLike) then
      match (← form t) with
      | .array element => return some element
      | _ => return if (← allParts t TypeFlags.stringLike) then some stringType else none
    else return none

def elementType (mark : Mark) (target index : Expr) : Check TypeId := do
  let targetType ← q.accessedType target
  let indexType ← q.typeOfExpr index none
  match (← accessTarget targetType target) with
  | .inl t => return t
  | .inr t =>
    match (← q.indexedType? mark t indexType) with
    | some result => return result
    | none =>
      let key ← q.textOf indexType
      error index.mark (.cannotIndex key (← q.textOf t))
      return errorType

/-! Literals -/

/-- The type that a property is expected to have where an object is expected. -/
def expectedProperty (expected : Option TypeId) (name : String) : Check (Option TypeId) := do
  match expected with
  | none => return none
  | some t =>
    let t ← removeUndefined t
    if (← hasFlag t TypeFlags.anyOrUnknown) then return none
    let found ← (← parts t).filterMapM fun part => do
      if !(← hasFlag part TypeFlags.structured) then return none
      match (← q.property part name) with
      | some x => return some (← q.typeOfSymbol x)
      | none => return none
    if found.isEmpty then return none
    return some (← union found)

/-- The types of the properties of an object literal; of two of one name the later counts. -/
def literalTypes (expected : Option TypeId) (done : List (Property × TypeId)) :
    List Property → Check (List (Property × TypeId))
  | [] => return done
  | p :: rest => do
    let isTaken := done.any (·.1.name = p.name)
    if isTaken then error p.mark .duplicateProperty
    let wanted ← q.expectedProperty expected p.name
    let type ← widenFor (← q.typeOfExpr p.value wanted) wanted
    literalTypes expected
      (if isTaken then done.map fun (o, t) => if o.name = p.name then (p, type) else (o, t) else done ++ [(p, type)]) rest

def literalProperty (p : Property) (type : TypeId) : Check (String × SymbolId) := do
  let declaration := Declaration.objectProperty p
  let x ← newSymbol
    { flags := SymbolFlags.property ||| SymbolFlags.transient, name := p.name, declarations := [declaration],
      valueDeclaration := some declaration, type := some type }
  return (p.name, x)

def objectType (properties : List Property) (expected : Option TypeId) : Check TypeId := do
  let typed ← q.literalTypes expected [] properties
  let properties ← typed.mapM fun (p, type) => literalProperty p type
  newType
    { flags := TypeFlags.object, form := .anonymous { isObjectLiteral := true, isFresh := true },
      members := some { properties } }

def arrayType (elements : List Expr) (expected : Option TypeId) : Check TypeId := do
  let s ← get
  let wanted := (expected.elim [] s.parts).findSome? fun part => match (s.typeInfo part).form with
    | .array element => some element
    | _ => none
  let types ← elements.mapM fun e => do widenFor (← q.typeOfExpr e wanted) wanted
  if types.isEmpty then arrayOf neverType else arrayOf (← union types)

/-! Calls -/

/-- The type that an argument at a position has to have. -/
def argumentType (g : SignatureId) (index : Nat) : Check TypeId := return (← q.typeAt g index).getD anyType

/-- Looks at all arguments with the parameters of a signature, and reports the first that does not fit
if asked to. -/
def checkArguments (g : SignatureId) (reporting : Bool) : List (Expr × Nat) → Check Unit
  | [] => return
  | (arg, index) :: rest => do
    let wanted ← q.typeAt g index
    let given ← q.typeOfExpr arg wanted
    match reporting, wanted with
    | true, some wanted =>
      let ok ← q.checkAssignable given wanted arg.mark .argumentNotAssignable
      checkArguments g ok rest
    | _, _ => checkArguments g reporting rest

/-- Reports a call with a number of arguments that no signature takes. -/
def reportCount (mark : Mark) (count : Nat) (signatures : List Signature) : Check Unit := do
  let least := (signatures.map (·.least)).min?.getD 0
  if signatures.any (·.hasRest) then error mark (.expectedAtLeast least count)
  else
    let most := (signatures.map (·.parameters.length)).max?.getD 0
    let expected := if least = most then toString least else toString least ++ "-" ++ toString most
    error mark (.expectedArguments expected count)

/-- Whether a signature takes arguments of known types; those of unknown type always fit. -/
def fitsArguments (types : List (Option TypeId × Nat)) (g : SignatureId) : Check Bool :=
  allHold (fun (type, index) => do
    match type with
    | none => return true
    | some t => q.assignable t (← q.argumentType g index)) types

/-- The first of some signatures that takes arguments of known types. -/
def firstFitting (types : List (Option TypeId × Nat)) : List SignatureId → Check (Option SignatureId)
  | [] => return none
  | g :: gs => do if (← q.fitsArguments types g) then return some g else firstFitting types gs

/-- The signature that a call chooses. Arguments whose types depend on the parameters are looked at
after the others have chosen. -/
def resolveCall (mark callee : Mark) (args : List Expr) (signatures : List SignatureId) : Check (Option SignatureId) := do
  let count := args.length
  let infos ← signatures.mapM fun g => return (g, ← signature g)
  let candidates := (infos.filter fun (_, s) => s.takes count).map (·.1)
  match candidates with
  | [] =>
    reportCount mark count (infos.map (·.2))
    match signatures with
    | [] => return none
    | first :: _ =>
      q.checkArguments first false args.zipIdx
      return some first
  | context :: others =>
    let types ← args.zipIdx.mapM fun (arg, index) => do
      if isContextSensitive arg then return (none, index)
      return (some (← q.typeOfExpr arg (← q.typeAt context index)), index)
    match (← q.firstFitting types candidates) with
    | none =>
      if others.isEmpty then q.checkArguments context true args.zipIdx
      else
        error callee .noOverload
        q.checkArguments context false args.zipIdx
      return some context
    | some chosen =>
      for (arg, index) in args.zipIdx do
        if isContextSensitive arg then
          let wanted ← q.argumentType chosen index
          let given ← q.typeOfExpr arg (some wanted)
          discard <| q.checkAssignable given wanted arg.mark .argumentNotAssignable
      return some chosen

/-- The type of what is called, which should not be undefined. -/
def calledType (callee : Mark) (t : TypeId) : Check TypeId := do
  if (← containsUndefined t) && !(← hasFlag t TypeFlags.voidLike) then
    error callee .invokePossiblyUndefined
    removeUndefined t
  else return t

/-- The signature that a call of a type chooses, if the type can be called. -/
def chosenSignature (mark callee : Mark) (args : List Expr) (t : TypeId) : Check (Option SignatureId) := do
  let signatures ← q.signatures (← q.apparent t)
  if signatures.isEmpty then
    report callee .notCallable [(Message.noCallSignatures (← q.textOf t)).text]
    for arg in args do discard <| q.typeOfExpr arg none
    return none
  else q.resolveCall mark callee args signatures

def callType (mark : Mark) (callee : Expr) (args : List Expr) : Check TypeId := do
  let t ← q.typeOfExpr callee none
  if (← hasFlag t TypeFlags.any) then
    for arg in args do discard <| q.typeOfExpr arg none
    return t
  match (← q.chosenSignature mark callee.mark args (← calledType callee.mark t)) with
  | none => return errorType
  | some g =>
    modify fun s => { s with resolvedSignatures := s.resolvedSignatures.insert mark.id g }
    q.resultOf g

/-! Operators -/

def unaryType (op : UnaryOp) (operand : Expr) : Check TypeId := do
  discard <| q.typeOfExpr operand none
  match op, operand with
  | .minus, .number _ value _ => numberLiteral value.spelled.negate
  | .plus, .number _ value _ => numberLiteral value
  | .not, _ => return booleanType
  | .typeof, _ => return stringType
  | _, _ => return numberType

/-- What is left of a part of a type, of its values only those that count as false. -/
def falsyOf? (p : TypeId) : Check (Option TypeId) := do
  let info ← typeInfo p
  match info.form with
  | .literal value _ => return if value.isTruthy then none else some p
  | .enumLiteral n _ => return if n.isZero then some p else none
  | _ =>
    if info.flags.meets TypeFlags.string then return some (← textLiteral "")
    if info.flags.meets (TypeFlags.number ||| TypeFlags.enum) then return some (← numberLiteral (.int 0))
    if info.flags.meets TypeFlags.boolean then return some falseType
    if info.flags.meets TypeFlags.voidLike then return some p
    return none

/-- The part of a type whose values count as false. -/
def falsyPart (t : TypeId) : Check TypeId := do
  let s ← get
  let types := s.parts t
  match types.find? fun p => (s.typeInfo p).flags.meets TypeFlags.anyOrUnknown with
  | some p => return p
  | none => union (← types.filterMapM falsyOf?)

/-- What is left of a part of a type, of its values only those that count as true. -/
def truthyOf? (info : TypeInfo) (p : TypeId) : Option TypeId :=
  if info.flags.meets TypeFlags.voidLike then none
  else match info.form with
    | .literal value _ => if value.isTruthy then some p else none
    | .enumLiteral n _ => if n.isZero then none else some p
    | _ => some (if info.flags.meets TypeFlags.boolean then trueType else p)

/-- The part of a type whose values count as true. -/
def truthyPart (t : TypeId) : Check TypeId := do
  let s ← get
  union ((s.parts t).filterMap fun p => truthyOf? (s.typeInfo p) p)

/-- A type as messages about operators show it. -/
def operandText (t : TypeId) : Check String := do q.textOf (← regular t)

/-- Reports operands that an operator does not take. -/
def reportOperands (mark : Mark) (op : BinaryOp) (left right : TypeId) : Check Unit := do
  let l ← q.operandText left
  let r ← q.operandText right
  error mark (.operatorMismatch op.text l r)

def hasStringOperand (left right : TypeId) : Check Bool := do
  let s ← get
  return s.allParts left TypeFlags.stringLike || s.allParts right TypeFlags.stringLike

def isNumeric (t : TypeId) : Check Bool := allParts t TypeFlags.numberLike

/-- The type of a sum: a number, or a text if one operand is. -/
def sumType (mark : Mark) (left right : TypeId) : Check TypeId := do
  if (← isNumeric left) && (← isNumeric right) then return numberType
  if (← hasStringOperand left right) then return stringType
  if (← hasFlag left TypeFlags.any) || (← hasFlag right TypeFlags.any) then return anyType
  q.reportOperands mark .add left right
  return errorType

/-- Whether an operand is a number; one that is not is reported. -/
def isNumericOperand (mark : Mark) (t : TypeId) (message : Message) : Check Bool := do
  if (← hasFlag t TypeFlags.any) || (← isNumeric t) then return true
  error mark message
  return false

def arithmeticType (leftMark rightMark : Mark) (left right : TypeId) : Check TypeId := do
  let leftOk ← isNumericOperand leftMark left .leftOperand
  let rightOk ← isNumericOperand rightMark right .rightOperand
  return if leftOk && rightOk then numberType else errorType

def relationalType (mark : Mark) (op : BinaryOp) (left right : TypeId) : Check TypeId := do
  let s ← get
  let anyOperand := (s.typeInfo left).flags.meets TypeFlags.any || (s.typeInfo right).flags.meets TypeFlags.any
  let both (mask : TypeFlags) : Bool := s.allParts left mask && s.allParts right mask
  unless anyOperand || both TypeFlags.numberLike || both TypeFlags.stringLike do
    q.reportOperands mark op left right
  return booleanType

/-- Anything can be compared with undefined; other types have to overlap. -/
def equalityType (mark : Mark) (left right : TypeId) : Check TypeId := do
  let free := TypeFlags.any ||| TypeFlags.voidLike
  if (← hasFlag left free) || (← hasFlag right free) then return booleanType
  let l ← regular left
  let r ← regular right
  if !(← q.comparable l r) then
    if !(← q.comparable r l) then
      let shownLeft ← q.operandText left
      let shownRight ← q.operandText right
      error mark (.noOverlap shownLeft shownRight)
  return booleanType

/-- The type of an operator with two operands whose types are known. -/
def operatorType (op : BinaryOp) (left right : TypeId) (mark leftMark rightMark : Mark) : Check TypeId := do
  if left = errorType || right = errorType then
    return if op = .add && (← hasStringOperand left right) then stringType else errorType
  if op = .add then q.sumType mark left right
  else if isArithmetic op then arithmeticType leftMark rightMark left right
  else if isRelational op then q.relationalType mark op left right
  else if isEquality op then q.equalityType mark left right
  else return errorType

def binaryType (mark : Mark) (op : BinaryOp) (left right : Expr) (expected : Option TypeId) : Check TypeId := do
  match op with
  | .and | .or =>
    let l ← q.typeOfExpr left expected
    let r ← q.typeOfExpr right (expected.or (some l))
    union [← if op = .and then falsyPart l else truthyPart l, r]
  | _ =>
    let l ← q.typeOfExpr left none
    let r ← q.typeOfExpr right none
    q.operatorType op l r mark left.mark right.mark

def awaitType (mark : Mark) (operand : Expr) : Check TypeId := do
  unless ((← get).container? mark).any (·.isAsync) do error mark .awaitOutsideAsync
  q.awaited (← q.typeOfExpr operand none)

/-! Assignments and assertions -/

/-- The type that an assigned value has to have. -/
def assignedType (target : Expr) : Check TypeId := do
  let t ← q.typeOfExpr target none
  match target with
  | .ident mark name =>
    match (← get).resolvedSymbols[mark.id]? with
    | none => return t
    | some x =>
      let s ← symbol x
      if s.isConst then
        error mark (.assignToConstant name)
        return errorType
      if !s.flags.meets SymbolFlags.variableLike then
        error mark .invalidTarget
        return errorType
      return t
  | _ =>
    match (← get).resolvedSymbols[target.mark.id]? with
    | none => return t
    | some x =>
      let s ← symbol x
      if s.flags.meets SymbolFlags.enumMember then error target.mark (.assignToReadonly s.name)
      return t

/-- Whether an expression can be assigned to. -/
def isAssignmentTarget : Expr → Bool
  | .ident .. | .member .. | .element .. => true
  | _ => false

/-- The type that a value has to have to be assigned to an expression. -/
def targetType (target : Expr) : Check TypeId := do
  if isAssignmentTarget target then q.assignedType target
  else
    error target.mark .invalidTarget
    discard <| q.typeOfExpr target none
    return errorType

def assignmentType (mark : Mark) (op : AssignOp) (target value : Expr) : Check TypeId := do
  let wanted ← q.targetType target
  match op with
  | none =>
    let given ← q.typeOfExpr value (some wanted)
    discard <| q.checkAssignable given wanted target.mark .notAssignable
    return given
  | some op =>
    let given ← q.typeOfExpr value none
    let result ← q.operatorType op wanted given mark mark mark
    discard <| q.checkAssignable result wanted target.mark .notAssignable
    return result

def castType (mark : Mark) (expr : Expr) (node : TypeNode) : Check TypeId := do
  q.checkAnnotation [] node
  let target ← q.typeOfNode node []
  let source ← widen (← q.typeOfExpr expr (some target))
  if !(← q.comparable source target) then
    if !(← q.comparable target source) then
      let s ← q.textOf source
      let t ← q.textOf target
      error mark (.conversionMistake s t)
  return target

/-! Functions -/

/-- Reports an async function that cannot give a promise. -/
def checkAsync (f : FunctionNode) (g : SignatureId) : Check Unit := do
  if f.isAsync then
    if (← q.promiseType).isNone then
      error f.mark .asyncNeedsPromise
      modifySignature g fun s => { s with result := some errorType }
    else match f.result with
      | some node =>
        let declared ← q.resultOf g
        if declared ≠ errorType then
          if (← q.promised declared).isNone then error node.mark (.asyncResult (← q.textOf declared))
      | none => return

/-- The type of a parameter of an arrow function: as annotated, or as the expected signature has it. -/
def arrowParameterType (p : Param) (index : Nat) (expected : Option SignatureId) : Check TypeId := do
  match p.type, expected with
  | some node, _ =>
    q.checkAnnotation [] node
    q.typeOfNode node []
  | none, some g =>
    if p.rest then
      let sig ← signature g
      match sig.parameters.getLast? with
      | some x =>
        if sig.hasRest && index + 1 = sig.parameters.length then q.typeOfSymbol x
        else arrayOf (← q.argumentType g index)
      | none => arrayOf (← q.argumentType g index)
    else
      let t ← q.argumentType g index
      if p.optional then removeUndefined t else return t
  | none, none =>
    error p.mark (.implicitAny p.name (implicitTypeText p.rest))
    if p.rest then arrayOf anyType else return anyType

/-- The type of an arrow function. Its body is looked at later. -/
def arrowType (f : FunctionNode) (expected : Option TypeId) : Check TypeId := do
  let context ← q.expectedSignature expected
  modify fun s => { s with contextualSignatures := match context with
    | some g => s.contextualSignatures.insert f.mark.id g
    | none => s.contextualSignatures.erase f.mark.id }
  let g ← signatureOf f []
  let parameters := (← signature g).parameters
  for ((p, x), index) in (f.params.zip parameters).zipIdx do
    let t ← q.arrowParameterType p index context
    let t ← addOptional t (← symbol x).isOptional
    modifySymbol x fun s => { s with type := some t }
  match f.result with
  | some node => q.checkAnnotation [] node
  | none => pure ()
  q.checkAsync f g
  let t ← newType { flags := TypeFlags.object, form := .anonymous {}, members := some { signatures := [g] } }
  modify fun s => { s with deferred := s.deferred ++ [f] }
  return t

/-- The type of an expression, looked at for the first time. -/
def freshExprType (e : Expr) (expected : Option TypeId) : Check TypeId := do
  match e with
  | .number _ value _ => numberLiteral value
  | .string _ value => textLiteral value
  | .boolean _ value => return boolLiteral value
  | .ident mark name => q.nameType mark name false
  | .object _ properties => q.objectType properties expected
  | .array _ elements => q.arrayType elements expected
  | .member mark target name => q.memberType mark target name
  | .element mark target index => q.elementType mark target index
  | .call mark callee args => q.callType mark callee args
  | .unary _ op operand => q.unaryType op operand
  | .await mark operand => q.awaitType mark operand
  | .binary mark op left right => q.binaryType mark op left right expected
  | .conditional _ test thenBranch otherwise =>
    discard <| q.typeOfExpr test none
    let l ← q.typeOfExpr thenBranch expected
    let r ← q.typeOfExpr otherwise expected
    union [l, r]
  | .assign mark op target value => q.assignmentType mark op target value
  | .cast mark expr type => q.castType mark expr type
  | .arrow mark params body result isAsync => q.arrowType (.ofArrow mark params body result isAsync) expected

/-- The type of an expression. -/
def computeExprType (e : Expr) (expected : Option TypeId) : Check TypeId := do
  match (← get).nodeTypes[e.mark.id]? with
  | some t => return t
  | none =>
    let t ← q.freshExprType e expected
    noteType e.mark t
    return t

end Queries

end Fragment.Typing
