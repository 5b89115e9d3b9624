import Fragment.Typing.Reachability
import Fragment.Typing.Related

/-! What functions return, and what they take at each position. -/
namespace Fragment.Typing

namespace Queries

open Check

variable (q : Queries)

/-- The type that an argument at a position has to have, if the signature takes one there. -/
def typeAt (g : SignatureId) (index : Nat) : Check (Option TypeId) := do
  let sig ← signature g
  if sig.hasRest && sig.parameters.length ≤ index + 1 then
    match sig.parameters.getLast? with
    | some x =>
      match (← form (← q.typeOfSymbol x)) with
      | .array element => return some element
      | _ => return some anyType
    | none => return some anyType
  else match sig.parameters[index]? with
    | some x => return some (← q.typeOfSymbol x)
    | none => return none

/-- The one signature that a function is expected to have. -/
def expectedSignature (expected : Option TypeId) : Check (Option SignatureId) := do
  match expected with
  | none => return none
  | some t =>
    match (← q.signatures (← q.apparent (← removeUndefined t))) with
    | [g] => return some g
    | _ => return none

/-- The type that the values returned by a function are expected to have; for an async function what
its promise promises. -/
def expectedResult (f : FunctionNode) : Check (Option TypeId) := do
  match (← get).functionSignatures[f.mark.id]?, f.result with
  | some g, some _ =>
    let declared ← q.resultOf g
    if f.isAsync then return some ((← q.promised declared).getD declared)
    return some declared
  | _, _ =>
    match (← get).contextualSignatures[f.mark.id]? with
    | some g =>
      let t ← q.resultOf g
      if f.isAsync then return some (← q.awaited t)
      return some t
    | none => return none

/-- Whether an object type is assignable to one of some object types. -/
def isCovered (t : TypeId) (kept : List TypeId) : Check Bool := do
  let s ← get
  anyHolds (q.assignable t) (kept.filter fun k => (s.typeInfo k).isObject)

/-- Leaves out object types that are assignable to another; the first of two equivalent ones stays. -/
def reduceSubtypes (kept : List TypeId) : List TypeId → Check (List TypeId)
  | [] => return kept
  | t :: ts => do
    if (← typeInfo t).isObject then
      if (← q.isCovered t kept) then reduceSubtypes kept ts
      else
        let kept ← kept.filterM fun k => do
          if (← typeInfo k).isObject then return !(← q.assignable k t) else return true
        reduceSubtypes (kept ++ [t]) ts
    else reduceSubtypes (kept ++ [t]) ts

/-- The type of what a block returns. -/
def blockResult (statements : List Source.Stmt) (expected : Option TypeId) : Check TypeId := do
  let returns := returnsOfAll statements
  let types ← (returns.filterMap id).mapM (q.typeOfExpr · expected)
  if types.isEmpty then return voidType
  let types := if returns.any (·.isNone) || endReachable statements then types ++ [undefinedType] else types
  let widened ← types.mapM fun t => do widenFor (← regular t) expected
  union (← q.reduceSubtypes [] widened)

/-- The type of what the body of a function gives. -/
def bodyResult (expected : Option TypeId) : FunctionBody → Check TypeId
  | .block b => q.blockResult b.statements expected
  | .expr e => do widenFor (← q.typeOfExpr e expected) expected
  | .none => return anyType

/-- The type that a function without annotation returns. -/
def inferResult (f : FunctionNode) : Check TypeId := do
  let result ← q.bodyResult (← q.expectedResult f) f.body
  if f.isAsync then
    if (← q.promiseType).isNone then return errorType
    q.promiseOf (← q.awaited result)
  else return result

/-- The type of what a signature of its own gives. -/
def ownResult (sig : Signature) : Check TypeId := do
  match sig.node.result, sig.node.body with
  | some node, _ => q.typeOfNode node sig.typeScope
  | none, .none => return anyType
  | none, _ => q.inferResult sig.node

/-- The type of what a signature gives. A function whose result depends on itself gives any type there. -/
def computeResult (g : SignatureId) : Check TypeId := do
  let sig ← signature g
  match sig.result, sig.target with
  | some t, _ => return t
  | none, some target =>
    let t ← q.instantiate (← q.resultOf target) sig.mapper
    modifySignature g fun s => { s with result := some t }
    return t
  | none, none =>
    if (← get).resolvingSignatures.contains g then return anyType
    modify fun s => { s with resolvingSignatures := g :: s.resolvingSignatures }
    let t ← q.ownResult sig
    modify fun s => { s with resolvingSignatures := s.resolvingSignatures.erase g }
    modifySignature g fun s => { s with result := some t }
    return t

end Queries

end Fragment.Typing
