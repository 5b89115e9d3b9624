import Fragment.Typing.Construct

/-! The questions that the parts of the checker ask one another.
A type may depend on an expression, an expression on a relation between types, a relation on the
members of a type, and members on types again. Each part is written against a record of answers,
and the parts are put together level by level: what a level asks is answered by the one below. -/
namespace Fragment.Typing

/-- The answer to a question about two types, with the reasons for a refusal if they were asked for. -/
structure Outcome where
  holds : Bool
  notes : List String := []
  /-- The property of an object literal that the target does not know, and that target. -/
  excess : Option (SymbolId × TypeId) := none

/-- The answers of the level below. -/
structure Queries where
  /-- The type of a symbol's value. -/
  typeOfSymbol : SymbolId → Check TypeId
  /-- The type that a symbol names. -/
  declaredType : SymbolId → Check TypeId
  /-- The type that a node describes where type parameters are in scope. -/
  typeOfNode : Source.TypeNode → TypeScope → Check TypeId
  /-- A type with its type parameters replaced. -/
  instantiate : TypeId → Mapper → Check TypeId
  /-- The properties and signatures of a type. -/
  members : TypeId → Check Members
  /-- The property of a type under a name. -/
  property : TypeId → String → Check (Option SymbolId)
  /-- The type of what a signature gives. -/
  resultOf : SignatureId → Check TypeId
  /-- Whether a relation holds between two types; the flag asks for reasons. -/
  relate : Relation → Bool → TypeId → TypeId → Check Outcome
  /-- The type of an expression where a type may be expected. -/
  typeOfExpr : Source.Expr → Option TypeId → Check TypeId
  /-- A type as text, nested to some depth in another. -/
  write : TypeId → Nat → Check String
  /-- The type whose members a value of a type has. -/
  apparent : TypeId → Check TypeId
  /-- The type of what awaiting a value of a type gives. -/
  awaited : TypeId → Check TypeId

/-- Answers where no level is left. -/
def Queries.bottom : Queries where
  typeOfSymbol _ := throw .recursion
  declaredType _ := throw .recursion
  typeOfNode _ _ := throw .recursion
  instantiate _ _ := throw .recursion
  members _ := throw .recursion
  property _ _ := throw .recursion
  resultOf _ := throw .recursion
  relate _ _ _ _ := throw .recursion
  typeOfExpr _ _ := throw .recursion
  write _ _ := throw .recursion
  apparent _ := throw .recursion
  awaited _ := throw .recursion

/-- The symbol that a name means from a scope outwards, among those of some kinds. A scope has a
smaller number than those inside it, so `fuel` beyond its number is enough. -/
def State.resolve (s : State) (name : String) (meaning : SymbolFlags) : (fuel : Nat) → ScopeId → Option SymbolId
  | 0, _ => none
  | fuel + 1, scope => match s.scopes[scope]? with
    | none => none
    | some c =>
      let found := (c.names[name]?).filter fun x => (s.symbol x).flags.meets meaning
      match found, c.parent with
      | some x, _ => some x
      | none, some parent => s.resolve name meaning fuel parent
      | none, none => none

namespace Check

def resolve (name : String) (scope : ScopeId) (meaning : SymbolFlags) : Check (Option SymbolId) := do
  return (← get).resolve name meaning (scope + 1) scope

end Check

namespace Queries

open Check

variable (q : Queries)

/-- A global interface with a number of type parameters. -/
def globalType (name : String) (arity : Nat) : Check (Option TypeId) := do
  match (← lookupGlobal name) with
  | none => return none
  | some x =>
    if !(← symbol x).flags.meets SymbolFlags.interface then return none
    let declared ← q.declaredType x
    match (← form declared) with
    | .interface params => return if params.length = arity then some declared else none
    | _ => return none
where
  lookupGlobal (name : String) : Check (Option SymbolId) := do
    return ((← get).scopes[globalScope]?).bind (·.names[name]?)

def promiseType : Check (Option TypeId) := q.globalType "Promise" 1

/-- What a promise promises; other types promise nothing. -/
def promised (t : TypeId) : Check (Option TypeId) := do
  match (← q.promiseType), (← form t) with
  | some promise, .reference target args => return if target = promise then args.head? else none
  | _, _ => return none

/-- The type of promises of a type. -/
def promiseOf (t : TypeId) : Check TypeId := do
  match (← q.promiseType) with
  | some promise => referenceTo promise [t]
  | none => return errorType

/-- The parts of a type, each awaited until it is no promise. -/
def computeAwaited (t : TypeId) : Check TypeId := do
  if (← isUnion t) then union (← (← parts t).mapM q.awaited)
  else match (← q.promised t) with
    | some inner => q.awaited inner
    | none => return t

/-- Primitive types have the members of a global interface, type parameters those of their bound. -/
def computeApparent (t : TypeId) : Check TypeId := do
  let info ← typeInfo t
  match info.form with
  | .typeParameter (some bound) => q.apparent bound
  | .typeParameter none => return emptyObjectType
  | _ =>
    if info.flags.meets TypeFlags.stringLike then return (← q.globalType "String" 0).getD emptyObjectType
    if info.flags.meets TypeFlags.numberLike then return (← q.globalType "Number" 0).getD emptyObjectType
    if info.flags.meets TypeFlags.booleanLike then return (← q.globalType "Boolean" 0).getD emptyObjectType
    return t

/-- The type of a symbol's value when it is there. -/
def presentType (x : SymbolId) : Check TypeId := do
  let t ← q.typeOfSymbol x
  if (← symbol x).isOptional && (← isUnion t) then
    let s ← get
    union ((s.parts t).filter fun p => !(s.typeInfo p).flags.meets TypeFlags.undefined)
  else return t

def assignable (source target : TypeId) : Check Bool := return (← q.relate .assignable false source target).holds

def comparable (source target : TypeId) : Check Bool := return (← q.relate .comparable false source target).holds

/-- A type as text. -/
def textOf (t : TypeId) : Check String := q.write t 0

end Queries

end Fragment.Typing
