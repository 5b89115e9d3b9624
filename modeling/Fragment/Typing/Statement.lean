import Fragment.Typing.Expression

/-! Checking statements and the bodies of functions.
The body of a function is looked at after the statement in which the function stands. -/
namespace Fragment.Typing

open Fragment.Source (Mark Stmt Block VarDeclarator VarKind Param TypeNode TypeMember)

namespace Queries

open Check

variable (q : Queries)

/-- Looks at an annotation that may be absent. -/
def checkAnnotation? (scope : TypeScope) (node : Option TypeNode) : Check Unit :=
  match node with
  | some t => q.checkAnnotation scope t
  | none => return

def checkVariable (kind : VarKind) (ambient : Bool) (d : VarDeclarator) : Check Unit := do
  q.checkAnnotation? [] d.type
  match (← get).symbolOf[d.mark.id]? with
  | none => return
  | some x =>
    let declared ← q.typeOfSymbol x
    if kind = .const && d.init.isNone && !ambient then error d.mark .constWithoutValue
    match d.type, d.init with
    | some _, some e =>
      let given ← q.typeOfExpr e (some declared)
      discard <| q.checkAssignable given declared d.mark .notAssignable
    | none, some e =>
      let isFirst := (← symbol x).valueDeclaration.any (·.mark.id = d.mark.id)
      unless isFirst do discard <| q.typeOfExpr e none
    | _, none => return

/-- Checks what a function gives against its annotation; an async function promises it. -/
def checkGiven (f : FunctionNode) (mark : Mark) (expected : Option TypeId) (given : TypeId) : Check Unit := do
  match f.result, expected with
  | some _, some wanted =>
    if f.isAsync then discard <| q.checkAssignable (← q.awaited given) wanted mark .notAssignable
    else discard <| q.checkAssignable given wanted mark .notAssignable
  | _, _ => return

def checkReturn (mark : Mark) (value : Option Source.Expr) : Check Unit := do
  match (← get).container? mark with
  | none =>
    match value with
    | some e => discard <| q.typeOfExpr e none
    | none => return
  | some f =>
    let expected ← q.expectedResult f
    match value with
    | none => return
    | some e => q.checkGiven f e.mark expected (← q.typeOfExpr e expected)

def checkFunction (f : FunctionNode) : Check Unit := do
  let g ← signatureOf f []
  for p in f.params do
    match p.type with
    | some t => q.checkAnnotation [] t
    | none => unless f.ambient do error p.mark (.implicitAny p.name (implicitTypeText p.rest))
  q.checkAnnotation? [] f.result
  match (← get).symbolOf[f.mark.id]? with
  | some x => discard <| q.typeOfSymbol x
  | none => pure ()
  match f.body with
  | .none => return
  | _ =>
    q.checkAsync f g
    modify fun s => { s with deferred := s.deferred ++ [f] }

def checkInterface (mark : Mark) (parents : List TypeNode) (members : List TypeMember) : Check Unit := do
  match (← get).symbolOf[mark.id]? with
  | none => return
  | some x =>
    let declared ← q.declaredType x
    let scope := (← symbol x).typeScope
    q.checkAnnotations scope parents
    discard <| q.members declared
    q.checkMemberTypes scope members

mutual

/-- Checks a statement and those in it. -/
def checkStatement : Stmt → Check Unit
  | .expr _ e => discard <| q.typeOfExpr e none
  | .var _ kind declarations ambient => declarations.forM (q.checkVariable kind ambient)
  | .ret mark value => q.checkReturn mark value
  | .block (.mk _ ss) => checkStatements ss
  | .cond _ test thenBranch otherwise => do
    discard <| q.typeOfExpr test none
    checkStatement thenBranch
    match otherwise with
    | some s => checkStatement s
    | none => return
  | .loop _ test body => do
    discard <| q.typeOfExpr test none
    checkStatement body
  | .function mark _ params result body isAsync ambient =>
    q.checkFunction (.ofDeclaration mark params result body isAsync ambient)
  | .typeAlias mark _ _ type => do
    match (← get).symbolOf[mark.id]? with
    | some x =>
      discard <| q.declaredType x
      q.checkAnnotation (← symbol x).typeScope type
    | none => return
  | .interface mark _ _ parents members => q.checkInterface mark parents members
  | .enum mark .. => do
    match (← get).symbolOf[mark.id]? with
    | some x => discard <| q.declaredType x
    | none => return
  | .classDecl mark _ => error mark .classNotSupported
  | .importDecl mark module => error mark (.cannotFindModule module)
  | .brk _ | .cont _ | .empty _ => return

def checkStatements : List Stmt → Check Unit
  | [] => return
  | s :: ss => do
    checkStatement s
    checkStatements ss

end

/-- Reports a function that returns a value on some paths only. -/
def checkPaths (f : FunctionNode) (statements : List Stmt) : Check Unit := do
  let returns := returnsOfAll statements
  let hasValue := returns.any (·.isSome)
  let partly := hasValue && (endReachable statements || returns.any (·.isNone))
  match f.result with
  | none => if partly then error f.mark .notAllPathsReturn
  | some node =>
    match (← q.expectedResult f) with
    | none => return
    | some declared =>
      if (← somePart declared (TypeFlags.void ||| TypeFlags.any ||| TypeFlags.undefined)) then return
      if (← hasFlag declared TypeFlags.never) then return
      if !hasValue then error node.mark .mustReturnValue
      else if partly then error node.mark .notAllPathsReturn

/-- Checks what stands in the body of a function. -/
def checkContent (f : FunctionNode) : Check Unit := do
  match f.body with
  | .block b =>
    q.checkStatements b.statements
    q.checkPaths f b.statements
  | .expr e =>
    let expected ← q.expectedResult f
    q.checkGiven f e.mark expected (← q.typeOfExpr e expected)
  | .none => return

/-- Checks the body of a function, once. -/
def checkBody (f : FunctionNode) : Check Unit := do
  if (← get).checkedBodies.contains f.mark.id then return
  modify fun s => { s with checkedBodies := s.checkedBodies.insert f.mark.id () }
  q.checkContent f
  match (← get).functionSignatures[f.mark.id]? with
  | some g => discard <| q.resultOf g
  | none => return

/-- Checks the bodies that are waiting, and those that come up meanwhile. -/
def checkDeferred : (fuel : Nat) → Check Unit
  | 0 => throw .recursion
  | fuel + 1 => do
    match (← get).deferred with
    | [] => return
    | f :: rest =>
      modify fun s => { s with deferred := rest }
      q.checkBody f
      checkDeferred fuel

end Queries

end Fragment.Typing
