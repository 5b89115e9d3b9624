import Fragment.Typing.Member
import Fragment.Text.Quoted

/-! Types as text. -/
namespace Fragment.Typing

/-- Object types nested deeper than this are cut short. -/
def printDepth : Nat := 3

namespace Queries

open Check

variable (q : Queries)

/-- The name of the symbol of a type. -/
def symbolName (t : TypeId) : Check String := do
  match (← typeInfo t).symbol with
  | some x => return (← symbol x).name
  | none => return ""

/-- The parameters of a signature in parentheses. -/
def writeParameters (g : SignatureId) (depth : Nat) : Check String := do
  let sig ← signature g
  let last := sig.parameters.length - 1
  let texts ← sig.parameters.zipIdx.mapM fun (x, i) => do
    let s ← symbol x
    let type ← q.write (← q.presentType x) depth
    let rest := if sig.hasRest && i = last then "..." else ""
    let mark := if s.isOptional then "?" else ""
    return rest ++ s.name ++ mark ++ ": " ++ type
  return "(" ++ String.intercalate ", " texts ++ ")"

/-- A signature with its result after `between`. -/
def writeSignature (between : String) (g : SignatureId) (depth : Nat) : Check String := do
  let params ← q.writeParameters g depth
  let result ← q.write (← q.resultOf g) depth
  return params ++ between ++ result

/-- A property as it is declared; a method once for each of its signatures. -/
def writeProperty (x : SymbolId) (depth : Nat) : Check (List String) := do
  let s ← symbol x
  let name := s.name ++ (if s.isOptional then "?" else "")
  let type ← q.presentType x
  if s.flags.meets SymbolFlags.method then
    (← q.signatures type).mapM fun g => return name ++ (← q.writeSignature ": " g depth) ++ ";"
  else return [name ++ ": " ++ (← q.write type depth) ++ ";"]

/-- Whether an object type is only called, in one way. -/
def isFunctionType (t : TypeId) : Check Bool := do
  match (← form t) with
  | .anonymous a =>
    if a.isEnumObject then return false
    if !(← q.properties t).isEmpty then return false
    return (← q.signatures t).length = 1
  | _ => return false

/-- A type as a part of another: unions, intersections and functions stand in parentheses. -/
def writePart (t : TypeId) (depth : Nat) : Check String := do
  let text ← q.write t depth
  let info ← typeInfo t
  if info.givenName.isSome then return text
  let compound ← match info.form with
    | .union _ | .intersection _ => pure true
    | _ => q.isFunctionType t
  return if compound then "(" ++ text ++ ")" else text

/-- An object type without a name. -/
def writeObject (t : TypeId) (a : Anonymous) (depth : Nat) : Check String := do
  if a.isEnumObject then return "typeof " ++ (← symbolName t)
  let properties ← q.properties t
  let signatures ← q.signatures t
  match properties, signatures with
  | [], [g] => q.writeSignature " => " g (depth + 1)
  | [], [] => return "\x7b\x7d"
  | _, _ =>
    if printDepth ≤ depth then return "\x7b ...; \x7d"
    let calls ← signatures.mapM fun g => return (← q.writeSignature ": " g (depth + 1)) ++ ";"
    let fields ← properties.mapM (q.writeProperty · (depth + 1))
    return "\x7b " ++ String.intercalate " " (calls ++ fields.flatten) ++ " \x7d"

/-- A type as text. The part `undefined` of a union is written last. -/
def computeText (t : TypeId) (depth : Nat) : Check String := do
  let info ← typeInfo t
  match info.givenName, info.form with
  | some name, _ => return name
  | none, .intrinsic name => return name
  | none, .enumLiteral _ base => return (← symbolName base) ++ "." ++ (← symbolName t)
  | none, .literal (.text s) _ => return Text.jsonQuoted false s
  | none, .literal (.bool b) _ => return if b then "true" else "false"
  | none, .literal (.number n) _ => n.sourceText
  | none, .enum _ | none, .typeParameter _ => symbolName t
  | none, .union types =>
    let s ← get
    let (last, first) := types.partition fun p => (s.typeInfo p).flags.meets TypeFlags.undefined
    return String.intercalate " | " (← (first ++ last).mapM (q.writePart · depth))
  | none, .intersection types => return String.intercalate " & " (← types.mapM (q.writePart · depth))
  | none, .array element => return (← q.writePart element depth) ++ "[]"
  | none, .reference _ args =>
    let args ← args.mapM (q.write · depth)
    return (← symbolName t) ++ "<" ++ String.intercalate ", " args ++ ">"
  | none, .interface [] => symbolName t
  | none, .interface params =>
    return (← symbolName t) ++ "<" ++ String.intercalate ", " (← params.mapM symbolName) ++ ">"
  | none, .anonymous a => q.writeObject t a depth

end Queries

end Fragment.Typing
