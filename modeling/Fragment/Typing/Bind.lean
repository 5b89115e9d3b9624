import Fragment.Typing.State

/-! Declaring the names of a file.
All files share one global scope. Functions have a scope with their parameters and the variables of
their body, blocks one for what they declare themselves. Declarations of one name merge where their
kinds allow it; otherwise the later one gets a symbol of its own. Every node is noted with its
file, every name with its scope and the function around it. -/
namespace Fragment.Typing

open Fragment.Source (Mark TypeNode TypeMember Param TypeParam Block Body VarDeclarator VarKind EnumMember
  Property Stmt SourceFile)

/-- Where a node stands: its file, the function around it, and whether a loop of that function is. -/
structure Place where
  file : String
  container : Option FunctionNode := none
  inLoop : Bool := false

/-- A symbol with one more declaration. The first declaration of a value is the one that counts. -/
def Symbol.addDeclaration (x : Symbol) (d : Declaration) (flags : SymbolFlags) : Symbol :=
  { x with
    flags := x.flags ||| flags
    declarations := x.declarations ++ [d]
    valueDeclaration := if flags.meets SymbolFlags.value then x.valueDeclaration.or (some d) else x.valueDeclaration }

/-- Whether a declaration is a function with a body. -/
def Declaration.isImplementation : Declaration → Bool
  | .function f => match f.body with
    | .none => false
    | _ => true
  | _ => false

namespace Check

def lookupIn (scope : ScopeId) (name : String) : Check (Option SymbolId) := do
  return ((← get).scopes[scope]?).bind (·.names[name]?)

def bindName (scope : ScopeId) (name : String) (x : SymbolId) : Check Unit :=
  modify fun s => { s with scopes := s.scopes.modify scope fun c => { c with names := c.names.insert name x } }

def noteSymbol (mark : Mark) (x : SymbolId) : Check Unit :=
  modify fun s => { s with symbolOf := s.symbolOf.insert mark.id x }

def noteFile (p : Place) (mark : Mark) : Check Unit :=
  modify fun s => { s with fileOf := s.fileOf.insert mark.id p.file }

def noteScope (mark : Mark) (scope : ScopeId) : Check Unit :=
  modify fun s => { s with scopeOf := s.scopeOf.insert mark.id scope }

def noteContainer (p : Place) (mark : Mark) : Check Unit :=
  modify fun s => { s with containerOf := s.containerOf.insert mark.id p.container }

/-- Declares a name in a scope. A name that is taken by a kind in `excludes` is reported, and the
declaration then has a symbol that the scope does not know. -/
def declare (scope : ScopeId) (name : String) (flags excludes : SymbolFlags) (d : Declaration) : Check SymbolId := do
  match (← lookupIn scope name) with
  | none =>
    let x ← newSymbol (Symbol.addDeclaration { flags := 0, name } d flags)
    bindName scope name x
    noteSymbol d.mark x
    return x
  | some x =>
    let old ← symbol x
    if old.flags.meets excludes then
      if (flags ||| old.flags).meets SymbolFlags.blockVariable && flags.meets SymbolFlags.variableLike then
        error d.mark (.cannotRedeclare name)
      else
        error d.mark (.duplicateIdentifier name)
      let orphan ← newSymbol (Symbol.addDeclaration { flags := 0, name } d flags)
      noteSymbol d.mark orphan
      return orphan
    else
      if flags.meets SymbolFlags.function && old.flags.meets SymbolFlags.function && d.isImplementation &&
          old.declarations.any Declaration.isImplementation then
        error d.mark .duplicateImplementation
      modifySymbol x (·.addDeclaration d flags)
      noteSymbol d.mark x
      return x

/-- Declares one kind of name, which excludes what its kind excludes. -/
def declareKind (scope : ScopeId) (name : String) (flags : SymbolFlags) (d : Declaration) : Check SymbolId :=
  declare scope name flags flags.excludes d

end Check

open Check

/-- The function that a declaration declares. -/
def FunctionNode.ofDeclaration (mark : Mark) (params : List Param) (result : Option TypeNode) (body : Option Block)
    (isAsync ambient : Bool) : FunctionNode :=
  { mark, params, result, body := body.elim .none .block, isAsync, ambient }

/-- An arrow function. -/
def FunctionNode.ofArrow (mark : Mark) (params : List Param) (body : Body) (result : Option TypeNode) (isAsync : Bool) :
    FunctionNode :=
  { mark, params, result, isAsync, body := match body with
      | .block b => .block b
      | .expr e => .expr e }

/-- Declares what a statement declares in its own scope. -/
def declareStatement (p : Place) (scope : ScopeId) : Stmt → Check Unit
  | .var _ kind declarations ambient => do
    if kind = .var then return
    for d in declarations do
      noteFile p d.mark
      let x ← declareKind scope d.name SymbolFlags.blockVariable (.variable d)
      modifySymbol x fun s => { s with isConst := kind = .const, isAmbient := ambient }
  | .function mark name params result body isAsync ambient => do
    noteFile p mark
    let f := FunctionNode.ofDeclaration mark params result body isAsync ambient
    let x ← declareKind scope name SymbolFlags.function (.function f)
    modifySymbol x fun s => { s with isAmbient := ambient }
  | .interface mark name typeParams parents members => do
    noteFile p mark
    discard <| declareKind scope name SymbolFlags.interface (.interface mark typeParams parents members)
  | .typeAlias mark name typeParams type => do
    noteFile p mark
    discard <| declareKind scope name SymbolFlags.typeAlias (.typeAlias mark typeParams type)
  | .enum mark name members isConst ambient => do
    noteFile p mark
    let flags := if isConst then SymbolFlags.constEnum else SymbolFlags.regularEnum
    let x ← declareKind scope name flags (.enum mark members)
    modifySymbol x fun s => { s with isAmbient := ambient }
  | _ => return

mutual

/-- Declares each `var` of a statement in the scope of the function around it. -/
def hoistVar (p : Place) (scope : ScopeId) : Stmt → Check Unit
  | .var _ kind declarations ambient => do
    if kind = .var then
      for d in declarations do
        noteFile p d.mark
        let x ← declareKind scope d.name SymbolFlags.functionVariable (.variable d)
        modifySymbol x fun s => { s with isAmbient := ambient }
  | .block (.mk _ ss) => hoistVars p scope ss
  | .cond _ _ thenBranch otherwise => do
    hoistVar p scope thenBranch
    match otherwise with
    | some s => hoistVar p scope s
    | none => pure ()
  | .loop _ _ body => hoistVar p scope body
  | _ => return

def hoistVars (p : Place) (scope : ScopeId) : List Stmt → Check Unit
  | [] => return
  | s :: ss => do
    hoistVar p scope s
    hoistVars p scope ss

end

mutual

/-- Notes the nodes of a type. -/
def bindType (p : Place) : TypeNode → Check Unit
  | .ref m _ args => do
    noteFile p m
    bindTypes p args
  | .array m element => do
    noteFile p m
    bindType p element
  | .union m types => do
    noteFile p m
    bindTypes p types
  | .intersection m types => do
    noteFile p m
    bindTypes p types
  | .literal m _ => noteFile p m
  | .function m params result => do
    noteFile p m
    bindTypeParams p params
    bindType p result
  | .members m members => do
    noteFile p m
    bindMembers p members

def bindTypes (p : Place) : List TypeNode → Check Unit
  | [] => return
  | t :: ts => do
    bindType p t
    bindTypes p ts

def bindTypeParams (p : Place) : List Param → Check Unit
  | [] => return
  | .mk m _ type _ _ :: ps => do
    noteFile p m
    match type with
    | some t => bindType p t
    | none => pure ()
    bindTypeParams p ps

def bindMembers (p : Place) : List TypeMember → Check Unit
  | [] => return
  | .property m _ type _ :: ms => do
    noteFile p m
    bindType p type
    bindMembers p ms
  | .method m _ params result _ :: ms => do
    noteFile p m
    bindTypeParams p params
    match result with
    | some t => bindType p t
    | none => pure ()
    bindMembers p ms
  | .call m params result :: ms => do
    noteFile p m
    bindTypeParams p params
    match result with
    | some t => bindType p t
    | none => pure ()
    bindMembers p ms

end

/-- Declares the parameters of a function. -/
def bindParams (p : Place) (scope : ScopeId) (params : List Param) : Check Unit :=
  params.forM fun param => do
    noteFile p param.mark
    let flags := if param.optional then SymbolFlags.functionVariable ||| SymbolFlags.optional
      else SymbolFlags.functionVariable
    discard <| declare scope param.name flags SymbolFlags.value (.param param)
    match param.type with
    | some t => bindType p t
    | none => pure ()

/-- Makes the scope of a function and declares its parameters. -/
def enterFunction (p : Place) (scope : ScopeId) (f : FunctionNode) : Check (Place × ScopeId) := do
  let inner ← newScope { parent := some scope }
  let place : Place := { file := p.file, container := some f }
  bindParams place inner f.params
  match f.result with
  | some t => bindType place t
  | none => pure ()
  return (place, inner)

def bindGenerics (p : Place) (params : List TypeParam) : Check Unit :=
  params.forM fun param => do
    noteFile p param.mark
    match param.constraint with
    | some t => bindType p t
    | none => pure ()

mutual

/-- Declares and notes what is inside an expression. -/
def bindExpr (p : Place) (scope : ScopeId) : Source.Expr → Check Unit
  | .number m .. => noteFile p m
  | .string m _ => noteFile p m
  | .boolean m _ => noteFile p m
  | .ident m _ => do
    noteFile p m
    noteScope m scope
    noteContainer p m
  | .object m properties => do
    noteFile p m
    bindProperties p scope properties
  | .array m elements => do
    noteFile p m
    bindExprs p scope elements
  | .member m target _ => do
    noteFile p m
    bindExpr p scope target
  | .element m target index => do
    noteFile p m
    bindExpr p scope target
    bindExpr p scope index
  | .call m callee args => do
    noteFile p m
    bindExpr p scope callee
    bindExprs p scope args
  | .unary m _ operand => do
    noteFile p m
    bindExpr p scope operand
  | .await m operand => do
    noteFile p m
    noteContainer p m
    bindExpr p scope operand
  | .binary m _ left right => do
    noteFile p m
    bindExpr p scope left
    bindExpr p scope right
  | .conditional m test thenBranch otherwise => do
    noteFile p m
    bindExpr p scope test
    bindExpr p scope thenBranch
    bindExpr p scope otherwise
  | .assign m _ target value => do
    noteFile p m
    bindExpr p scope target
    bindExpr p scope value
  | .cast m expr type => do
    noteFile p m
    bindExpr p scope expr
    bindType p type
  | .arrow m params body result isAsync => do
    noteFile p m
    noteScope m scope
    noteContainer p m
    let (place, inner) ← enterFunction p scope (.ofArrow m params body result isAsync)
    match body with
    | .block b => bindBody place inner b
    | .expr e => bindExpr place inner e

def bindExprs (p : Place) (scope : ScopeId) : List Source.Expr → Check Unit
  | [] => return
  | e :: es => do
    bindExpr p scope e
    bindExprs p scope es

def bindProperties (p : Place) (scope : ScopeId) : List Property → Check Unit
  | [] => return
  | .mk m _ value _ :: ps => do
    noteFile p m
    bindExpr p scope value
    bindProperties p scope ps

/-- The block that is the body of a function declares in the scope of the function. -/
def bindBody (p : Place) (scope : ScopeId) : Block → Check Unit
  | .mk m ss => do
    noteFile p m
    noteScope m scope
    hoistVars p scope ss
    ss.forM (declareStatement p scope)
    bindStmts p scope ss

def bindStmts (p : Place) (scope : ScopeId) : List Stmt → Check Unit
  | [] => return
  | s :: ss => do
    bindStmt p scope s
    bindStmts p scope ss

def bindDeclarators (p : Place) (scope : ScopeId) : List VarDeclarator → Check Unit
  | [] => return
  | .mk m _ type init :: ds => do
    noteFile p m
    noteScope m scope
    noteContainer p m
    match type with
    | some t => bindType p t
    | none => pure ()
    match init with
    | some e => bindExpr p scope e
    | none => pure ()
    bindDeclarators p scope ds

def bindEnumMembers (p : Place) (scope : ScopeId) : List EnumMember → Check Unit
  | [] => return
  | .mk m _ init :: ms => do
    noteFile p m
    match init with
    | some e => bindExpr p scope e
    | none => pure ()
    bindEnumMembers p scope ms

/-- Declares and notes what is inside a statement, the names of its own scope apart. -/
def bindStmt (p : Place) (scope : ScopeId) : Stmt → Check Unit
  | .expr m e => do
    noteFile p m
    bindExpr p scope e
  | .var m _ declarations _ => do
    noteFile p m
    bindDeclarators p scope declarations
  | .ret m value => do
    noteFile p m
    noteContainer p m
    if p.container.isNone then error m .returnOutsideFunction
    match value with
    | some e => bindExpr p scope e
    | none => pure ()
  | .brk m => do
    noteFile p m
    unless p.inLoop do error m .breakOutsideLoop
  | .cont m => do
    noteFile p m
    unless p.inLoop do error m .continueOutsideLoop
  | .empty m => noteFile p m
  | .block (.mk m ss) => do
    noteFile p m
    let inner ← newScope { parent := some scope }
    noteScope m inner
    ss.forM (declareStatement p inner)
    bindStmts p inner ss
  | .cond m test thenBranch otherwise => do
    noteFile p m
    bindExpr p scope test
    let inner ← enterNested p scope thenBranch
    bindStmt p inner thenBranch
    match otherwise with
    | some s => do
      let inner ← enterNested p scope s
      bindStmt p inner s
    | none => pure ()
  | .loop m test body => do
    noteFile p m
    bindExpr p scope test
    let place := { p with inLoop := true }
    let inner ← enterNested place scope body
    bindStmt place inner body
  | .function m _ params result body isAsync ambient => do
    noteFile p m
    noteScope m scope
    noteContainer p m
    let (place, inner) ← enterFunction p scope (.ofDeclaration m params result body isAsync ambient)
    match body with
    | some b => bindBody place inner b
    | none => pure ()
  | .typeAlias m _ typeParams type => do
    noteFile p m
    bindGenerics p typeParams
    bindType p type
  | .interface m _ typeParams parents members => do
    noteFile p m
    bindGenerics p typeParams
    bindTypes p parents
    bindMembers p members
  | .enum m _ members _ _ => do
    noteFile p m
    bindEnumMembers p scope members
  | .classDecl m _ => noteFile p m
  | .importDecl m _ => noteFile p m
where
  /-- The scope of a branch or loop body: a block makes its own, any other statement gets one. -/
  enterNested (p : Place) (scope : ScopeId) (s : Stmt) : Check ScopeId := do
    match s with
    | .block _ => return scope
    | _ =>
      let inner ← newScope { parent := some scope }
      declareStatement p inner s
      return inner

end

/-- Declares and notes all that is in a file. -/
def bindFile (f : SourceFile) : Check Unit := do
  let p : Place := { file := f.name }
  hoistVars p globalScope f.statements
  f.statements.forM (declareStatement p globalScope)
  bindStmts p globalScope f.statements

end Fragment.Typing
