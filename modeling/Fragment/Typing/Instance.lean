import Fragment.Typing.Queries

/-! Replacing type parameters by types. -/
namespace Fragment.Typing

/-- The order of replacements by parameter, then by type. -/
def Mapper.sorted (m : Mapper) : Mapper :=
  m.mergeSort fun a b => if a.1 = b.1 then a.2 ≤ b.2 else a.1 ≤ b.1

namespace Check

/-- An instance of an object type without a name. There is one for each way to replace its parameters. -/
def anonymousInstance (target : TypeId) (mapper : Mapper) : Check TypeId := do
  let key := (target, Mapper.sorted mapper)
  match (← get).instances[key]? with
  | some existing => return existing
  | none =>
    let origin ← typeInfo target
    let node := match origin.form with
      | .anonymous b => b.node
      | _ => none
    let instanceType ← newType
      { flags := TypeFlags.object, symbol := origin.symbol, givenName := origin.givenName,
        form := .anonymous { node, target := some target, mapper } }
    modify fun s => { s with instances := s.instances.insert key instanceType }
    return instanceType

end Check

namespace Queries

open Check

variable (q : Queries)

/-- A type with its parameters replaced. An object type without a name is instantiated as a whole and
looks at its members later; object literals and enumerations have no parameters. -/
def computeInstance (t : TypeId) (mapper : Mapper) : Check TypeId := do
  if mapper.isEmpty then return t
  let info ← typeInfo t
  match info.form with
  | .typeParameter _ => return (mapper.lookup t).getD t
  | .union types => namedUnion (← types.mapM (q.instantiate · mapper)) info.givenName
  | .intersection types => intersection (← types.mapM (q.instantiate · mapper))
  | .array element => arrayOf (← q.instantiate element mapper)
  | .reference target args => referenceTo target (← args.mapM (q.instantiate · mapper))
  | .anonymous a =>
    if a.isObjectLiteral || a.isEnumObject then return t
    match a.target with
    | some target =>
      let combined ← a.mapper.mapM fun (p, value) => do return (p, ← q.instantiate value mapper)
      anonymousInstance target combined
    | none => anonymousInstance t mapper
  | _ => return t

end Queries

namespace Check

/-- A symbol whose type is that of another with parameters replaced. -/
def instanceSymbol (x : SymbolId) (mapper : Mapper) : Check SymbolId := do
  let s ← symbol x
  newSymbol
    { flags := s.flags ||| SymbolFlags.transient, name := s.name, declarations := s.declarations,
      valueDeclaration := s.valueDeclaration, parent := s.parent, enumValue := s.enumValue,
      target := some x, mapper }

/-- A signature whose types are those of another with parameters replaced. -/
def instanceSignature (g : SignatureId) (mapper : Mapper) : Check SignatureId := do
  let s ← signature g
  let parameters ← s.parameters.mapM (instanceSymbol · mapper)
  newSignature { s with parameters, result := none, target := some g, mapper, typeScope := [] }

/-- Members with parameters replaced. -/
def instanceMembers (m : Members) (mapper : Mapper) : Check Members := do
  let properties ← m.properties.mapM fun (name, x) => do return (name, ← instanceSymbol x mapper)
  let signatures ← m.signatures.mapM (instanceSignature · mapper)
  return { properties, signatures }

end Check

end Fragment.Typing
