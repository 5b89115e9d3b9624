import Fragment.Typing.Queries

/-! The types that written types stand for. -/
namespace Fragment.Typing

open Fragment.Source (TypeNode Mark)

namespace Queries

open Check

variable (q : Queries)

/-- The type that a name with arguments stands for: a type parameter in scope, a word of the language
or something declared for the whole program. -/
def namedType (mark : Mark) (name : String) (args : List TypeNode) (scope : TypeScope) : Check TypeId := do
  match (scope.lookup name).or (intrinsicType? name) with
  | some t =>
    unless args.isEmpty do error mark (.notGeneric name)
    return t
  | none =>
    match (← resolve name globalScope SymbolFlags.type) with
    | none =>
      match (← resolve name globalScope SymbolFlags.value) with
      | some _ => error mark (.refersToValue name)
      | none => error mark (.cannotFindName name)
      return errorType
    | some x =>
      let declared ← q.declaredType x
      let params := (← symbol x).typeParameters
      let args ← args.mapM (q.typeOfNode · scope)
      if params.isEmpty then
        if args.isEmpty then return declared
        error mark (.notGeneric name)
        return errorType
      else if args.length ≠ params.length then
        let names ← params.mapM paramName
        error mark (.requiresTypeArguments (name ++ "<" ++ String.intercalate ", " names ++ ">") params.length)
        return errorType
      else match (← form declared) with
        | .interface _ => referenceTo declared args
        | _ => q.instantiate declared (params.zip args)
where
  paramName (p : TypeId) : Check String := do
    match (← typeInfo p).symbol with
    | some x => return (← symbol x).name
    | none => return ""

/-- The type that a node stands for, looked at for the first time. -/
def computeAnnotation (node : TypeNode) (scope : TypeScope) : Check TypeId := do
  match node with
  | .ref mark name args => q.namedType mark name args scope
  | .array _ element => arrayOf (← q.typeOfNode element scope)
  | .union _ types => union (← types.mapM (q.typeOfNode · scope))
  | .intersection _ types => intersection (← types.mapM (q.typeOfNode · scope))
  | .literal _ (.bool b) => return boolLiteral b
  | .literal _ (.text t) => textLiteral t
  | .literal _ (.number n) => numberLiteral n
  | .function .. | .members .. =>
    newType { flags := TypeFlags.object, form := .anonymous { node := some node, typeScope := scope } }

/-- The type that a node stands for. -/
def annotation (node : TypeNode) (scope : TypeScope) : Check TypeId := do
  match (← get).typeNodeTypes[node.mark.id]? with
  | some t => return t
  | none =>
    let t ← q.computeAnnotation node scope
    modify fun s => { s with typeNodeTypes := s.typeNodeTypes.insert node.mark.id t }
    return t

end Queries

end Fragment.Typing
