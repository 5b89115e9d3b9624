import Fragment.Emit.Operator
import Fragment.Emit.Scan

/-! Making code of expressions and statements.
Every function becomes a definition: a declared one at the start of its block, an arrow function just
before the statement that contains it. A function first says which names of other functions it
assigns. -/
namespace Fragment.Emit

open Fragment.Source (Mark Expr Property Param Body Block Stmt VarDeclarator AssignOp UnaryOp)
open Fragment.Typing (SymbolId TypeId TypeFlags Check)

open Lowering

/-- A name as it is read or written; `undefined` has no name of its own. -/
def nameExpr (mark : Mark) (name : String) : Lowering Target.Expr := do
  match (← ask (Check.symbolAt? mark)) with
  | none => refuse ("unresolved name '" ++ name ++ "'")
  | some x => if x = Typing.undefinedSymbol then return .none else return .name (← nameOf x)

/-- The text of a name to which something is assigned. -/
def targetName (mark : Mark) (name : String) : Lowering String := return (← nameExpr mark name).render

/-- A condition: a truth value as it is, anything else through a helper. -/
def condition (e : Expr) (test : Target.Expr) : Lowering Target.Expr := do
  if (← allParts (← typeOf e) TypeFlags.booleanLike) then return test
  return .helper .truthy [test]

/-- A property read. -/
def memberExpr (mark : Mark) (source : Expr) (name : String) (target : Target.Expr) : Lowering Target.Expr := do
  let t ← typeOf source
  let isLength := name = "length" && ((← allParts t TypeFlags.stringLike) || (← isArray t))
  if isLength then return .helper .length [target]
  if (← readsRequired mark) && (← isPlainObject t) then return .subscript target name
  return .helper .getMember [target, .text name]

/-- A read at an index. -/
def elementExpr (mark : Mark) (source index : Expr) (target key : Target.Expr) : Lowering Target.Expr := do
  match index with
  | .string _ name =>
    if (← readsRequired mark) then
      if (← isPlainObject (← typeOf source)) then return .subscript target name
    return .helper .index [target, key]
  | _ => return .helper .index [target, key]

def unaryExpr (op : UnaryOp) (source : Expr) (operand : Target.Expr) : Lowering Target.Expr := do
  let t ← typeOf source
  match op with
  | .not =>
    if (← allParts t TypeFlags.booleanLike) then return .not operand
    return .not (.helper .truthy [operand])
  | .typeof => return .helper .typeOf [operand]
  | _ =>
    let number := if (← allParts t TypeFlags.numberLike) then operand else .helper .toNumber [operand]
    return if op = .minus then .negate number else number

/-- A logical operator. The left operand is kept in a temporary unless it is a truth value. -/
def logicalExpr (isAnd : Bool) (leftType : TypeId) (left right : Target.Expr) : Lowering Target.Expr := do
  if (← allParts leftType TypeFlags.booleanLike) then return if isAnd then .and left right else .or left right
  let temp ← temporary .value
  let test : Target.Expr := .truthyBind temp left
  return if isAnd then .cond test right (.name temp) else .cond test (.name temp) right

/-- A returned value; an async function does not return a promise. -/
def returnExpr (source : Expr) (value : Target.Expr) : Lowering Target.Expr := do
  if !(← read).isAsync then return value
  let t ← typeOf source
  if (← ask (Check.hasFlag t TypeFlags.any)) then return .await value
  if (← ask (Typing.answers.promised t)).isSome then return .await value
  return value

/-- The parameters of a function, and the symbols that they declare. -/
def parameters (params : List Param) : Lowering (List Target.Param × List SymbolId) := do
  let made ← params.mapM fun p => do
    match (← declaredSymbol? p.mark) with
    | none => refuse ("parameter '" ++ p.name ++ "' has no symbol")
    | some x =>
      let name ← nameOf x
      let mode : Target.ParamMode := if p.rest then .rest else if p.optional then .optional else .required
      return ((⟨name, mode⟩ : Target.Param), x)
  return (made.map (·.1), made.map (·.2))

/-- The names in order. -/
def sortedNames (names : List String) : List String := names.mergeSort fun a b => !(b < a)

/-- Says which of the assigned names belong to the outermost level and which to functions around. -/
def bindingLines (assigned : List Mark) (own : List SymbolId) : Lowering Unit := do
  let symbols := (← assigned.filterMapM fun m => ask (Check.symbolAt? m)).eraseDups
  let foreign := symbols.filter fun x => !own.contains x && x ≠ Typing.undefinedSymbol
  let context ← read
  let named ← foreign.mapM fun x => do
    let isGlobal := (context.libraryName? x).isSome ||
      (context.moduleSymbols.contains x && context.kind = .script)
    return (isGlobal, ← nameOf x)
  let globals := (named.filter (·.1)).map (·.2)
  let nonlocals := (named.filter (!·.1)).map (·.2)
  unless globals.isEmpty do push (.globals (sortedNames globals))
  unless nonlocals.isEmpty do push (.nonlocals (sortedNames nonlocals))

/-- Gives each `var` the value undefined at the start. -/
def hoistLines (marks : List Mark) : Lowering Unit := do
  let names ← (← declaredSymbols marks).mapM nameOf
  for name in names.eraseDups do push (.assign name .none)

/-- Turns the rest arguments into an array. -/
def collectLine (params : List Target.Param) : Lowering Unit :=
  match (params.filter (·.mode = .rest)).getLast? with
  | some p => push (.collect p.name)
  | none => return

/-- The literal of a number. -/
def numberExpr (n : Number) : Lowering Target.Expr :=
  if n.isWritable then return .number n else throw (.fault Number.tooLong)

/-- The object that an enumeration is at run time. -/
def enumLine (mark : Mark) : Lowering Unit := do
  match (← declaredSymbol? mark) with
  | none => return
  | some x =>
    let t ← ask (Typing.answers.declaredType x)
    let s := (← get).typing
    let members := match (s.typeInfo t).form with
      | .enum members => members.map s.symbol
      | _ => []
    let entries ← members.mapM fun m => return (m.name, ← numberExpr (m.enumValue.getD (.int 0)))
    push (.assign (← nameOf x) (.dict entries))

/-- The name of a declared variable. -/
def variableName (mark : Mark) (name : String) : Lowering SymbolId := do
  match (← declaredSymbol? mark) with
  | some x => return x
  | none => refuse ("declaration of '" ++ name ++ "' has no symbol")

/-- The value that an assignment stores, given the value on its right. -/
def combined (op : AssignOp) (current : Target.Expr) (target value : Expr) (assigned : Target.Expr) :
    Lowering Target.Expr := do
  match op with
  | none => return assigned
  | some op => operator op current (← typeOf target) assigned (← typeOf value)

/-- A store to a property of which the new value is known. -/
def storeExpr (object key assigned : Target.Expr) : Target.Expr := .helper .setMember [object, key, assigned]

/-- Temporaries for the object and the key of a store that also reads. -/
structure Store where
  object : String
  key : String

def Store.current (s : Store) : Target.Expr := .helper .index [.name s.object, .name s.key]

def newStore : Lowering Store := do
  let object ← temporary .value
  let key ← temporary .value
  return ⟨object, key⟩

/-- The start of a function body with statements. -/
def blockStart (params : List Target.Param) (own : List SymbolId) (ss : List Stmt) : Lowering Unit := do
  let declared ← declaredSymbols (declaredInAll ss)
  bindingLines (assignedInStmts ss) (own ++ declared)
  collectLine params
  hoistLines (hoistedInAll ss)

/-- The name, the parameters and the symbols of the parameters of a declared function. -/
def functionStart (mark : Mark) (name : String) (params : List Param) :
    Lowering (String × List Target.Param × List SymbolId) := do
  match (← declaredSymbol? mark) with
  | none => refuse ("function '" ++ name ++ "' has no symbol")
  | some x =>
    let name ← nameOf x
    return (name, ← parameters params)

/-- The body of a function. -/
def functionBody (isAsync : Bool) (act : Lowering Unit) : Lowering (List Target.Stmt) :=
  withReader (fun c => { c with isAsync }) (suite act)

/-- Where a statement stands: directly in the file, in a block, or alone as a branch or loop body. -/
inductive Place where
  | top
  | block
  | branch
  deriving DecidableEq

mutual

/-- The code of an expression. -/
def lowerExpr : Expr → Lowering Target.Expr
  | .number _ value _ => numberExpr value
  | .string _ value => return .text value
  | .boolean _ value => return .bool value
  | .ident mark name => nameExpr mark name
  | .object _ properties => return .dict (← lowerProperties properties)
  | .array _ elements => return .list (← lowerExprs elements)
  | .member mark target name => do
    match (← get).typing.constants[mark.id]? with
    | some n => numberExpr n
    | none => memberExpr mark target name (← lowerExpr target)
  | .element mark target index => do
    match (← get).typing.constants[mark.id]? with
    | some n => numberExpr n
    | none =>
      let object ← lowerExpr target
      let key ← lowerExpr index
      elementExpr mark target index object key
  | .call _ callee args => do
    let args ← lowerExprs args
    return .call (← lowerExpr callee) args
  | .unary _ op operand => do unaryExpr op operand (← lowerExpr operand)
  | .await _ operand => return .await (← lowerExpr operand)
  | .binary _ op left right => do
    let l ← lowerExpr left
    let leftType ← typeOf left
    let r ← lowerExpr right
    match op with
    | .and => logicalExpr true leftType l r
    | .or => logicalExpr false leftType l r
    | _ => operator op l leftType r (← typeOf right)
  | .conditional _ test yes no => do
    let t ← condition test (← lowerExpr test)
    let y ← lowerExpr yes
    return .cond t y (← lowerExpr no)
  | .assign _ op (.ident mark name) value => do
    let x ← targetName mark name
    let assigned ← lowerExpr value
    return .bind x (← combined op (.name x) (.ident mark name) value assigned)
  | .assign _ op (.member mark object name) value => do
    let o ← lowerExpr object
    match op with
    | none => return storeExpr o (.text name) (← lowerExpr value)
    | some _ =>
      let store ← newStore
      let assigned ← lowerExpr value
      let result ← combined op store.current (.member mark object name) value assigned
      return storeExpr (.bind store.object o) (.bind store.key (.text name)) result
  | .assign _ op (.element mark object index) value => do
    let o ← lowerExpr object
    let k ← lowerExpr index
    match op with
    | none => return storeExpr o k (← lowerExpr value)
    | some _ =>
      let store ← newStore
      let assigned ← lowerExpr value
      let result ← combined op store.current (.element mark object index) value assigned
      return storeExpr (.bind store.object o) (.bind store.key k) result
  | .assign .. => refuse "invalid assignment target"
  | .cast _ e _ => lowerExpr e
  | .arrow _ params body _ isAsync => do
    let name ← temporary .function
    let (made, own) ← parameters params
    let inside ← functionBody isAsync (lowerBody made own body)
    push (.define name isAsync made inside)
    return .name name

def lowerExprs : List Expr → Lowering (List Target.Expr)
  | [] => return []
  | e :: es => do
    let first ← lowerExpr e
    return first :: (← lowerExprs es)

def lowerProperties : List Property → Lowering (List (String × Target.Expr))
  | [] => return []
  | .mk _ name value _ :: ps => do
    let first ← lowerExpr value
    return (name, first) :: (← lowerProperties ps)

/-- The body of an arrow function. -/
def lowerBody (params : List Target.Param) (own : List SymbolId) : Body → Lowering Unit
  | .block (.mk _ ss) => do
    blockStart params own ss
    lowerDeclarations ss
    lowerStmts .block ss
  | .expr e => do
    bindingLines (assignedIn e) own
    collectLine params
    push (.ret (← returnExpr e (← lowerExpr e)))

/-- The functions that some statements declare. -/
def lowerDeclarations : List Stmt → Lowering Unit
  | [] => return
  | .function mark name params _ (some (.mk _ ss)) isAsync _ :: rest => do
    let (name, made, own) ← functionStart mark name params
    let inside ← functionBody isAsync do
      blockStart made own ss
      lowerDeclarations ss
      lowerStmts .block ss
    push (.define name isAsync made inside)
    lowerDeclarations rest
  | _ :: rest => lowerDeclarations rest

/-- Some statements, functions declared among them apart. -/
def lowerStmts (place : Place) : List Stmt → Lowering Unit
  | [] => return
  | s :: ss => do
    lowerStmt place s
    lowerStmts place ss

def lowerDeclarators (isVar : Bool) : List VarDeclarator → Lowering Unit
  | [] => return
  | .mk mark name _ init :: ds => do
    let x ← variableName mark name
    match init with
    | some e =>
      let value ← lowerExpr e
      push (.assign (← nameOf x) value)
    | none => unless isVar do push (.assign (← nameOf x) .none)
    lowerDeclarators isVar ds

/-- One statement. Directly in the file an expression gives the result; declarations of types and
empty statements give no code. -/
def lowerStmt (place : Place) : Stmt → Lowering Unit
  | .expr _ (.assign m op (.ident mark name) value) => do
    if place = .top then
      push (.assign Target.completionName (← lowerExpr (.assign m op (.ident mark name) value)))
    else
      let x ← targetName mark name
      let assigned ← lowerExpr value
      push (.assign x (← combined op (.name x) (.ident mark name) value assigned))
  | .expr _ e => do
    let value ← lowerExpr e
    push (if place = .top then .assign Target.completionName value else .expr value)
  | .var _ kind declarations ambient => unless ambient do lowerDeclarators (kind = .var) declarations
  | .ret _ value => do
    match value with
    | some e => push (.ret (← returnExpr e (← lowerExpr e)))
    | none => push (.ret .none)
  | .block (.mk _ ss) => do
    lowerDeclarations ss
    lowerStmts .block ss
  | .cond _ test yes no => do
    let t ← condition test (← lowerExpr test)
    let y ← suite (lowerStmt .branch yes)
    match no with
    | some s =>
      let n ← suite (lowerStmt .branch s)
      push (.cond t y (some n))
    | none => push (.cond t y none)
  | .loop _ test body => do
    let t ← condition test (← lowerExpr test)
    push (.loop t (← suite (lowerStmt .branch body)))
  | .brk _ => push .brk
  | .cont _ => push .cont
  | .function mark name params _ (some (.mk _ ss)) isAsync _ => do
    if place = .branch then
      let (name, made, own) ← functionStart mark name params
      let inside ← functionBody isAsync do
        blockStart made own ss
        lowerDeclarations ss
        lowerStmts .block ss
      push (.define name isAsync made inside)
  | .enum mark _ _ isConst ambient => unless isConst || ambient do enumLine mark
  | _ => return

end

/-- The statements of a file, which leave its result behind. -/
def fileStatements (ss : List Stmt) : Lowering (List Target.Stmt) :=
  collected do
    push (.assign Target.completionName .none)
    hoistLines (hoistedInAll ss)
    lowerDeclarations ss
    lowerStmts .top ss

/-- The code of a file that has been checked. In a closure the statements stand in a function. -/
def lowerFile (file : Source.SourceFile) (kind : ModuleKind) : Lowering Target.Module := do
  let ss := file.statements
  match kind with
  | .script => return ⟨file.name, ← fileStatements ss⟩
  | .closure =>
    let own ← declaredSymbols (declaredInAll ss)
    let lines ← collected (bindingLines (assignedInStmts ss) own)
    let statements ← fileStatements ss
    return ⟨file.name, [
      .define Target.moduleName false [] (lines ++ statements ++ [.ret (.name Target.completionName)]),
      .assign Target.completionName (.call (.name Target.moduleName) [])]⟩

/-- Checks a file and makes its code. -/
def emitFile (file : Source.SourceFile) (kind : ModuleKind) (typing : Typing.State) :
    Except Failure (Target.Module × Typing.State) := do
  let ((), typing) ← Failure.ofFault ((Check.checkFile file).run typing)
  let libraries := librarySymbols typing
  let moduleSymbols := (declaredInAll file.statements).filterMap fun m => typing.symbolOf[m.id]?
  let context : Context := { kind, librarySymbols := libraries, moduleSymbols }
  let start : Progress := { typing, names := Names.start (libraries.map (·.1)) }
  let (code, progress) ← ((lowerFile file kind).run context).run start
  return (code, progress.typing)

end Fragment.Emit
