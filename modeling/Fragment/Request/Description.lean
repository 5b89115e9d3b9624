import Fragment.Compilation
import Fragment.Parameter

/-! What a fragment takes and gives.
A parameter has to be exactly a number or exactly a text; the result, behind one promise at most,
has to be an object all of whose fields are number-like. -/
namespace Fragment

/-- The parameters of a fragment and the fields of its result. -/
structure Description where
  parameters : List Parameter
  result : List (String × ParameterKind)

namespace Description

open Typing (TypeId SymbolId SignatureId TypeFlags Check)

/-- A question to the checker whose answer may be a refusal. -/
abbrev Inspect := ExceptT CompileError Check

/-- The kind of parameter that a type is. -/
def kindOf? (flags : TypeFlags) : Option ParameterKind :=
  if flags = TypeFlags.number then some .numeric
  else if flags = TypeFlags.string then some .textual
  else none

/-- The one signature of a fragment. -/
def signatureOf (e : Source.Expr) : Inspect SignatureId := do
  let t ← Check.typeOfExpr e
  match (← Typing.answers.signatures t) with
  | [g] => return g
  | signatures =>
    let text ← Typing.answers.textOf t
    throw (.signature text signatures.length)

/-- The parameter that a symbol is. -/
def parameterOf (x : SymbolId) : Inspect Parameter := do
  let t ← Typing.answers.typeOfSymbol x
  let name := (← Check.symbol x).name
  match kindOf? (← Check.flags t) with
  | some kind => return ⟨name, kind⟩
  | none => throw (.parameterType name (← Typing.answers.textOf t))

/-- Whether a type is an object type that is neither an array nor a function nor a promise. -/
def isPlainObject (t : TypeId) : Check Bool := do
  let info ← Check.typeInfo t
  match info.form with
  | .array _ => return false
  | _ =>
    if !info.flags.meets TypeFlags.object then return false
    if !(← Typing.answers.signatures t).isEmpty then return false
    return (← Typing.answers.promised t).isNone

/-- The field of a result that a symbol is. -/
def fieldOf (x : SymbolId) : Inspect (String × ParameterKind) := do
  let t ← Typing.answers.typeOfSymbol x
  let name := (← Check.symbol x).name
  if (← Check.flags t).meets TypeFlags.numberLike then return (name, .numeric)
  throw (.resultField name (← Typing.answers.textOf t))

/-- The fields of the result of a signature. -/
def resultOf (g : SignatureId) : Inspect (List (String × ParameterKind)) := do
  let t ← Typing.answers.resultOf g
  let t := (← Typing.answers.promised t).getD t
  if !(← isPlainObject t) then throw (.returnShape (← Typing.answers.textOf t))
  (← Typing.answers.properties t).mapM fieldOf

/-- The description of a fragment. -/
def ofExpr (e : Source.Expr) : Inspect Description := do
  let g ← signatureOf e
  let parameters ← (← Check.signature g).parameters.mapM parameterOf
  return { parameters, result := ← resultOf g }

end Description

end Fragment
