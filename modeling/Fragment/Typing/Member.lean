import Fragment.Typing.Instance

/-! Properties and call signatures of types. -/
namespace Fragment.Typing

open Fragment.Source (TypeNode TypeMember Param)

/-- What a member declares: a signature has no name. -/
def memberDeclaration : TypeMember → Declaration
  | .property m _ type _ => .property m type
  | .method m _ params result _ => .method { mark := m, params, result }
  | .call m params result => .method { mark := m, params, result }

namespace Check

/-- The symbol of a parameter; one that no scope declares is made here. -/
def parameterSymbol (scope : TypeScope) (p : Param) : Check SymbolId := do
  let x ← match (← get).symbolOf[p.mark.id]? with
    | some x => pure x
    | none =>
      let flags := if p.optional then SymbolFlags.functionVariable ||| SymbolFlags.optional
        else SymbolFlags.functionVariable
      newSymbol { flags, name := p.name, declarations := [.param p], valueDeclaration := some (.param p) }
  modifySymbol x fun s => { s with typeScope := scope }
  return x

/-- The signature of a function or of a written signature; there is one for each node. -/
def signatureOf (node : FunctionNode) (scope : TypeScope) : Check SignatureId := do
  match (← get).functionSignatures[node.mark.id]? with
  | some g => return g
  | none =>
    let parameters ← node.params.mapM (parameterSymbol scope)
    let least := (node.params.foldl (fun (index, least) p =>
      (index + 1, if p.rest || p.optional then least else index + 1)) (0, 0)).2
    let g ← newSignature
      { node, parameters, least, hasRest := node.params.any (·.rest), typeScope := scope }
    modify fun s => { s with functionSignatures := s.functionSignatures.insert node.mark.id g }
    return g

/-- A property that is being put together from the bodies of one type: its declarations come with the
number of their body. -/
structure Draft where
  name : String
  symbol : SymbolId
  isMethod : Bool
  declarations : List (Nat × Declaration)

/-- Adds a property or method of one body under a name. A name may be declared again by another body,
and a method also by the same one. -/
def addNamed (scope : TypeScope) (rank : Nat) (seen : List String) (drafts : List Draft) (member : TypeMember)
    (name : String) (isMethod optional : Bool) : Check (List String × List Draft) := do
  match drafts.find? (·.name = name) with
  | none =>
    let kind := if isMethod then SymbolFlags.method else SymbolFlags.property
    let flags := if optional then kind ||| SymbolFlags.optional else kind
    let x ← newSymbol { flags, name, typeScope := scope }
    return (name :: seen, drafts ++ [⟨name, x, isMethod, [(rank, memberDeclaration member)]⟩])
  | some d =>
    if d.isMethod ≠ isMethod || (!isMethod && seen.contains name) then
      error member.mark (.duplicateIdentifier name)
      return (seen, drafts)
    if optional then modifySymbol d.symbol fun s => { s with flags := s.flags ||| SymbolFlags.optional }
    return (name :: seen, drafts.map fun d =>
      if d.name = name then { d with declarations := d.declarations ++ [(rank, memberDeclaration member)] }
      else d)

/-- Adds a member of one body; signatures have no name. -/
def addMember (scope : TypeScope) (rank : Nat) (seen : List String) (drafts : List Draft) (member : TypeMember) :
    Check (List String × List Draft) :=
  match member with
  | .property _ name _ optional => addNamed scope rank seen drafts member name false optional
  | .method _ name _ _ optional => addNamed scope rank seen drafts member name true optional
  | .call .. => return (seen, drafts)

/-- Adds the properties and methods of one body. -/
def addMembers (scope : TypeScope) (rank : Nat) (seen : List String) (drafts : List Draft) :
    List TypeMember → Check (List Draft)
  | [] => return drafts
  | m :: ms => do
    let (seen, drafts) ← addMember scope rank seen drafts m
    addMembers scope rank seen drafts ms

/-- Adds the properties and methods of several bodies. -/
def addBodies (scope : TypeScope) (rank : Nat) (drafts : List Draft) : List (List TypeMember) → Check (List Draft)
  | [] => return drafts
  | body :: bodies => do
    let drafts ← addMembers scope rank [] drafts body
    addBodies scope (rank + 1) drafts bodies

/-- The signatures that a body declares for the type itself. -/
def callSignatures (scope : TypeScope) : List TypeMember → Check (List SignatureId)
  | [] => return []
  | .call mark params result :: ms => do
    let g ← signatureOf { mark, params, result } scope
    return g :: (← callSignatures scope ms)
  | _ :: ms => callSignatures scope ms

/-- The members that the bodies of one type declare. Properties stand in the order in which they are
first named; overloads of later bodies come before those of earlier ones. -/
def declaredMembers (bodies : List (List TypeMember)) (scope : TypeScope) : Check Members := do
  let drafts ← addBodies scope 0 [] bodies
  for d in drafts do
    let declarations := (d.declarations.mergeSort fun a b => b.1 ≤ a.1).map (·.2)
    modifySymbol d.symbol fun s => { s with declarations, valueDeclaration := declarations.head? }
  let signatures ← bodies.reverse.mapM (callSignatures scope)
  return { properties := drafts.map fun d => (d.name, d.symbol), signatures := signatures.flatten }

end Check

/-- Whether a type is an object type. -/
def TypeInfo.isObject (i : TypeInfo) : Bool := i.flags.meets TypeFlags.object

namespace Queries

open Check

variable (q : Queries)

/-- The types that an interface extends, itself apart. -/
def baseTypes (t : TypeId) (x : Symbol) : Check (List TypeId) := do
  let parents := x.declarations.flatMap fun
    | .interface _ _ parents _ => parents
    | _ => []
  let bases ← parents.mapM (q.typeOfNode · x.typeScope)
  bases.filterM fun base => do
    let info ← typeInfo base
    let isSelf := base = t || (match info.form with
      | .reference target _ => target = t
      | _ => false)
    return !isSelf && info.isObject

/-- The members of an interface: its own, then those of the types that it extends. -/
def interfaceMembers (t : TypeId) : Check Members := do
  match (← typeInfo t).symbol with
  | none => return {}
  | some id =>
    let x ← symbol id
    let bodies := x.declarations.filterMap fun
      | .interface _ _ _ members => some members
      | _ => none
    let own ← declaredMembers bodies x.typeScope
    let mut result := own
    for base in (← q.baseTypes t x) do
      let inherited ← q.members base
      let fresh := inherited.properties.filter fun (name, _) => !(result.properties.any (·.1 = name))
      let signatures := if own.signatures.isEmpty then result.signatures ++ inherited.signatures else result.signatures
      result := { properties := result.properties ++ fresh, signatures }
    return result

/-- Adds a property to those of an intersection: two of one name are merged. -/
def mergeProperty (properties : List (String × SymbolId)) (name : String) (x : SymbolId) :
    Check (List (String × SymbolId)) := do
  match properties.lookup name with
  | none => return properties ++ [(name, x)]
  | some y =>
    let old ← symbol y
    let new ← symbol x
    let flags := SymbolFlags.property ||| SymbolFlags.transient
    let flags := if old.isOptional && new.isOptional then flags ||| SymbolFlags.optional else flags
    let merged ← newSymbol { flags, name, declarations := old.declarations ++ new.declarations }
    let left ← q.typeOfSymbol y
    let right ← q.typeOfSymbol x
    let t ← intersection [left, right]
    modifySymbol merged fun s => { s with type := some t }
    return properties.map fun (n, z) => if n = name then (n, merged) else (n, z)

/-- The members of all the parts of an intersection. -/
def intersectionMembers (types : List TypeId) : Check Members := do
  let mut result : Members := {}
  for t in types do
    let part ← q.members (← q.apparent t)
    let mut properties := result.properties
    for (name, x) in part.properties do
      properties ← q.mergeProperty properties name x
    result := { properties, signatures := result.signatures ++ part.signatures }
  return result

/-- The members of an object type, looked at for the first time. -/
def objectMembers (t : TypeId) : Check Members := do
  match (← form t) with
  | .array _ =>
    let length ← newSymbol
      { flags := SymbolFlags.property ||| SymbolFlags.transient, name := "length", type := some numberType }
    return { properties := [("length", length)] }
  | .interface _ => q.interfaceMembers t
  | .reference target args =>
    let declared ← q.members target
    let params ← match (← form target) with
      | .interface params => pure params
      | _ => pure []
    instanceMembers declared (params.zip args)
  | .anonymous a =>
    match a.target, a.node with
    | some target, _ => instanceMembers (← q.members target) a.mapper
    | none, some (.function mark params result) =>
      return { signatures := [← signatureOf { mark, params, result := some result } a.typeScope] }
    | none, some (.members _ members) => declaredMembers [members] a.typeScope
    | none, _ => return {}
  | _ => return {}

/-- The members of a type. While those of an object type are being looked at it seems to have none. -/
def computeMembers (t : TypeId) : Check Members := do
  let info ← typeInfo t
  match info.members with
  | some m => return m
  | none =>
    match info.form with
    | .intersection types =>
      let m ← q.intersectionMembers types
      modifyType t fun i => { i with members := some m }
      return m
    | _ =>
      if info.isObject then
        modifyType t fun i => { i with members := some {} }
        let m ← q.objectMembers t
        modifyType t fun i => { i with members := some m }
        return m
      else return {}

/-- The property of a union: each part has to have it. -/
def unionProperty (t : TypeId) (types : List TypeId) (name : String) : Check (Option SymbolId) := do
  match (← get).unionProperties[(t, name)]? with
  | some found => return found
  | none =>
    let found ← collect types
    let result ← match found with
      | none => pure none
      | some xs => do
        let symbols ← xs.mapM symbol
        let flags := SymbolFlags.property ||| SymbolFlags.transient
        let flags := if symbols.any (·.isOptional) then flags ||| SymbolFlags.optional else flags
        let merged ← newSymbol { flags, name, declarations := symbols.flatMap (·.declarations) }
        let type ← union (← xs.mapM q.typeOfSymbol)
        modifySymbol merged fun s => { s with type := some type }
        pure (some merged)
    modify fun s => { s with unionProperties := s.unionProperties.insert (t, name) result }
    return result
where
  /-- The property of each part, unless one lacks it. -/
  collect : List TypeId → Check (Option (List SymbolId))
    | [] => return some []
    | part :: rest => do
      match (← q.property (← q.apparent part) name) with
      | none => return none
      | some x => return (← collect rest).map (x :: ·)

/-- The property of a type under a name. -/
def computeProperty (t : TypeId) (name : String) : Check (Option SymbolId) := do
  let info ← typeInfo t
  match info.form with
  | .union types => q.unionProperty t types name
  | _ =>
    let t ← if info.flags.meets TypeFlags.primitive then q.apparent t else pure t
    return (← q.members t).properties.lookup name

/-- The properties of a type in order. -/
def properties (t : TypeId) : Check (List SymbolId) := do
  match (← form t) with
  | .union types =>
    match types with
    | [] => return []
    | first :: _ =>
      let names := (← q.members first).properties.map (·.1)
      return (← names.mapM (q.property t)).filterMap id
  | _ => return (← q.members t).properties.map (·.2)

/-- The call signatures of a type. A union has those of its first part if every part has one
signature, all with as many parameters. -/
def signatures (t : TypeId) : Check (List SignatureId) := do
  match (← form t) with
  | .union types =>
    let all ← types.mapM fun p => return (← q.members p).signatures
    let counts ← all.mapM fun
      | [g] => return some (← signature g).parameters.length
      | _ => return none
    match all, counts with
    | first :: _, count :: _ => return if count.isSome && counts.all (· == count) then first else []
    | _, _ => return []
  | _ => return (← q.members t).signatures

end Queries

end Fragment.Typing
