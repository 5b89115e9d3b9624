import Fragment.Typing.Annotation
import Fragment.Typing.Constant
import Fragment.Typing.Member

/-! The types of symbols: of their values, and those that they name. -/
namespace Fragment.Typing

open Fragment.Source (TypeParam TypeNode VarDeclarator Param)

namespace Check

/-- Makes the parameters of a generic declaration, without their bounds yet. -/
def newTypeParameters (params : List TypeParam) : Check (List TypeId) :=
  params.mapM fun p => do
    let x ← newSymbol { flags := SymbolFlags.typeParameter, name := p.name, declarations := [.typeParam p] }
    let t ← newType { flags := TypeFlags.typeParameter, form := .typeParameter none, symbol := some x }
    modifySymbol x fun s => { s with declaredType := some t }
    return t

end Check

/-- The names of type parameters; of two of one name the later counts. -/
def typeScopeOf (params : List TypeParam) (types : List TypeId) : TypeScope :=
  ((params.map (·.name)).zip types).reverse

namespace Queries

open Check

variable (q : Queries)

/-- Gives type parameters their bounds. -/
def boundTypeParameters (scope : TypeScope) : List TypeParam → List TypeId → Check Unit
  | p :: ps, t :: ts => do
    match p.constraint with
    | some node =>
      let bound ← q.typeOfNode node scope
      modifyType t fun i => { i with form := .typeParameter (some bound) }
    | none => pure ()
    boundTypeParameters scope ps ts
  | _, _ => return

/-- The type that an interface declares; its first declaration names the parameters. -/
def declareInterface (x : SymbolId) : Check TypeId := do
  let params := ((← symbol x).declarations.findSome? fun
    | .interface _ typeParams _ _ => some typeParams
    | _ => none).getD []
  let t ← newType { flags := TypeFlags.object, form := .interface [], symbol := some x }
  let types ← newTypeParameters params
  let scope := typeScopeOf params types
  modifySymbol x fun s => { s with declaredType := some t, typeScope := scope }
  q.boundTypeParameters scope params types
  modifyType t fun i => { i with form := .interface types }
  modifySymbol x fun s => { s with typeParameters := types }
  return t

/-- The type that an alias is written as. A union or an object type takes the alias as its own name. -/
def aliasedType (name : String) (node : TypeNode) (scope : TypeScope) : Check TypeId := do
  match node with
  | .union mark parts =>
    let t ← namedUnion (← parts.mapM (q.typeOfNode · scope)) (some name)
    modify fun s => { s with typeNodeTypes := s.typeNodeTypes.insert mark.id t }
    return t
  | _ =>
    let t ← q.typeOfNode node scope
    let info ← typeInfo t
    match info.form with
    | .anonymous a =>
      if info.givenName.isNone && a.node.any (·.mark.id = node.mark.id) then
        modifyType t fun i => { i with givenName := some name }
    | _ => pure ()
    return t

/-- The type that an alias names. While it is being looked at the alias names an error. -/
def declareAlias (x : SymbolId) : Check TypeId := do
  let s ← symbol x
  match s.declarations.findSome? fun | .typeAlias _ typeParams type => some (typeParams, type) | _ => none with
  | none => return errorType
  | some (params, node) =>
    let types ← newTypeParameters params
    let scope := typeScopeOf params types
    modifySymbol x fun s => { s with typeScope := scope }
    q.boundTypeParameters scope params types
    modifySymbol x fun s => { s with typeParameters := types, declaredType := some errorType }
    let t ← q.aliasedType s.name node scope
    modifySymbol x fun s => { s with declaredType := some t }
    return t

/-- The type that a symbol names. -/
def computeDeclared (x : SymbolId) : Check TypeId := do
  let s ← symbol x
  match s.declaredType with
  | some t => return t
  | none =>
    if s.flags.meets SymbolFlags.interface then q.declareInterface x
    else if s.flags.meets SymbolFlags.enum then q.declareEnum x
    else if s.flags.meets SymbolFlags.typeAlias then q.declareAlias x
    else return errorType

/-- The functions that can be called under a name: an implementation is not called through its
overloads. -/
def callableDeclarations (ds : List Declaration) : List FunctionNode :=
  let functions := ds.filterMap fun
    | .function f => some f
    | _ => none
  let overloads := functions.filter fun f => match f.body with
    | .none => true
    | _ => false
  if overloads.isEmpty || overloads.length = functions.length then functions else overloads

/-- The type of a function or method with the given signatures. -/
def functionType (x : SymbolId) (nodes : List FunctionNode) (scope : TypeScope) : Check TypeId := do
  let t ← newType { flags := TypeFlags.object, form := .anonymous {}, symbol := some x }
  let signatures ← nodes.mapM (signatureOf · scope)
  modifyType t fun i => { i with members := some { signatures } }
  return t

/-- The type of a variable: as annotated, or that of its first value. -/
def variableType (isConst : Bool) (d : VarDeclarator) : Check TypeId := do
  match d.type, d.init with
  | some node, _ => q.typeOfNode node []
  | none, none => return anyType
  | none, some e =>
    let t ← q.typeOfExpr e none
    if isConst then regular t else widen t

/-- The type of a parameter that its function does not give one. -/
def parameterType (s : Symbol) (p : Param) : Check TypeId := do
  let t ← match p.type with
    | some node => q.typeOfNode node s.typeScope
    | none => if p.rest then arrayOf anyType else pure anyType
  addOptional t s.isOptional

/-- The type of a symbol's value, looked at for the first time. -/
def freshSymbolType (x : SymbolId) : Check TypeId := do
  let s ← symbol x
  match s.target with
  | some target => q.instantiate (← q.typeOfSymbol target) s.mapper
  | none =>
    if s.flags.meets SymbolFlags.enumMember then
      match s.parent with
      | some parent => discard <| q.declaredType parent
      | none => pure ()
      return (← symbol x).type.getD errorType
    else if s.flags.meets SymbolFlags.enum then q.enumObject x
    else if s.flags.meets SymbolFlags.function then functionType x (callableDeclarations s.declarations) []
    else if s.flags.meets SymbolFlags.method then
      let nodes := s.declarations.filterMap fun
        | .method f => some f
        | _ => none
      addOptional (← functionType x nodes s.typeScope) s.isOptional
    else match s.valueDeclaration.or s.declarations.head? with
      | some (.property _ node) => addOptional (← q.typeOfNode node s.typeScope) s.isOptional
      | some (.variable d) => q.variableType s.isConst d
      | some (.param p) => q.parameterType s p
      | _ => return errorType

/-- The type of a symbol's value. A symbol whose type depends on itself has any type there. -/
def computeSymbolType (x : SymbolId) : Check TypeId := do
  match (← symbol x).type with
  | some t => return t
  | none =>
    if (← get).resolvingSymbols.contains x then return anyType
    modify fun s => { s with resolvingSymbols := x :: s.resolvingSymbols }
    let t ← q.freshSymbolType x
    modify fun s => { s with resolvingSymbols := s.resolvingSymbols.erase x }
    match (← symbol x).type with
    | some known => return known
    | none =>
      modifySymbol x fun s => { s with type := some t }
      return t

end Queries

end Fragment.Typing
