import Fragment.Typing.State

/-! Making types.
Literal, array, union, intersection and reference types exist once for each shape: asking again
gives the same number. A union is kept flat and in the order of its parts' numbers. -/
namespace Fragment.Typing

namespace Check

/-- The type of one text. -/
def textLiteral (t : String) : Check TypeId := do
  match (← get).textLiterals[t]? with
  | some id => return id
  | none =>
    let id ← newType { flags := TypeFlags.stringLiteral, form := .literal (.text t) stringType }
    modify fun s => { s with textLiterals := s.textLiterals.insert t id }
    return id

/-- The type of one number. -/
def numberLiteral (n : Number) : Check TypeId := do
  let n := n.normalize
  let key := n.key
  match (← get).numberLiterals[key]? with
  | some id => return id
  | none =>
    let id ← newType { flags := TypeFlags.numberLiteral, form := .literal (.number n) numberType }
    modify fun s => { s with numberLiterals := s.numberLiterals.insert key id }
    return id

/-- The type of one truth value. -/
def boolLiteral (b : Bool) : TypeId := if b then trueType else falseType

/-- The type of lists of an element type. -/
def arrayOf (element : TypeId) : Check TypeId := do
  match (← get).arrays[element]? with
  | some id => return id
  | none =>
    let id ← newType { flags := TypeFlags.object, form := .array element }
    modify fun s => { s with arrays := s.arrays.insert element id }
    return id

/-- A generic interface with arguments. -/
def referenceTo (target : TypeId) (args : List TypeId) : Check TypeId := do
  match (← get).references[(target, args)]? with
  | some id => return id
  | none =>
    let symbol := (← typeInfo target).symbol
    let id ← newType { flags := TypeFlags.object, form := .reference target args, symbol }
    modify fun s => { s with references := s.references.insert (target, args) id }
    return id

end Check

/-- The parts of a type: those of a union, or the type itself. -/
def State.parts (s : State) (t : TypeId) : List TypeId :=
  match (s.typeInfo t).form with
  | .union types => types
  | _ => [t]

/-- The first of each number. -/
def distinct (ids : List Nat) : List Nat :=
  ids.foldl (fun seen id => if seen.contains id then seen else seen ++ [id]) []

/-- The flags of some types together. -/
def State.flagsOf (s : State) (types : List TypeId) : TypeFlags :=
  types.foldl (fun f t => f ||| (s.typeInfo t).flags) 0

/-- The type that an enumeration member belongs to, or a literal widens to. -/
def State.baseOf? (s : State) (t : TypeId) : Option TypeId :=
  match (s.typeInfo t).form with
  | .literal _ base | .enumLiteral _ base => some base
  | _ => none

/-- Whether a part adds nothing to a union of the given parts. -/
def State.isAbsorbed (s : State) (all : List TypeId) (t : TypeId) : Bool :=
  let f := (s.typeInfo t).flags
  let includes := s.flagsOf all
  f.meets TypeFlags.never ||
  (f.meets TypeFlags.stringLiteral && includes.meets TypeFlags.string) ||
  (f.meets TypeFlags.numberLiteral && includes.meets TypeFlags.number) ||
  (f.meets TypeFlags.booleanLiteral && includes.meets TypeFlags.boolean) ||
  (f.meets TypeFlags.enumLiteral && all.any (s.baseOf? t == some ·))

/-- Both truth values together are the type of truth values. -/
def joinBooleans (types : List TypeId) : List TypeId :=
  if types.contains trueType && types.contains falseType then
    types.filter (fun t => t ≠ trueType && t ≠ falseType) ++ [booleanType]
  else types

/-- What a union of some types comes to, before it is looked up. -/
inductive UnionShape where
  | single (t : TypeId)
  | several (types : List TypeId)

/-- The union of some types: flat, without repetition and without parts that others absorb. -/
def State.unionShape (s : State) (types : List TypeId) : UnionShape :=
  let all := distinct (types.flatMap s.parts)
  let includes := s.flagsOf all
  if includes.meets TypeFlags.any then .single (if all.contains errorType then errorType else anyType)
  else if includes.meets TypeFlags.unknown then .single unknownType
  else match joinBooleans (all.filter (!s.isAbsorbed all ·)) with
    | [] => .single neverType
    | [t] => .single t
    | ts => .several (ts.mergeSort (· ≤ ·))

namespace Check

/-- The union of some types under a name, which may be empty. -/
def namedUnion (types : List TypeId) (givenName : Option String) : Check TypeId := do
  match (← get).unionShape types with
  | .single t => return t
  | .several ts =>
    let key := (ts, givenName.getD "")
    match (← get).unions[key]? with
    | some id => return id
    | none =>
      let id ← newType { flags := TypeFlags.union, form := .union ts, givenName }
      modify fun s => { s with unions := s.unions.insert key id }
      return id

def union (types : List TypeId) : Check TypeId := namedUnion types none

end Check

/-- The members of an intersection, or the type itself. -/
def State.factors (s : State) (t : TypeId) : List TypeId :=
  match (s.typeInfo t).form with
  | .intersection types => types
  | _ => [t]

/-- Whether types of more than one primitive kind are among some types. -/
def State.mixesKinds (s : State) (types : List TypeId) : Bool :=
  let f := s.flagsOf types
  1 < ([TypeFlags.stringLike, TypeFlags.numberLike, TypeFlags.booleanLike, TypeFlags.voidLike].filter
    (f.meets ·)).length

namespace Check

/-- The intersection of some types. -/
def intersection (types : List TypeId) : Check TypeId := do
  let s ← get
  let all := distinct (types.flatMap s.factors)
  let includes := s.flagsOf all
  if includes.meets TypeFlags.never then return neverType
  if includes.meets TypeFlags.any then return anyType
  let known := all.filter fun t => !(s.typeInfo t).flags.meets TypeFlags.unknown
  if s.mixesKinds known then return neverType
  match known with
  | [] => return unknownType
  | [t] => return t
  | ts =>
    let key := ts.mergeSort (· ≤ ·)
    match (← get).intersections[key]? with
    | some id => return id
    | none =>
      let id ← newType { flags := TypeFlags.intersection, form := .intersection ts }
      modify fun s => { s with intersections := s.intersections.insert key id }
      return id

end Check

/-- What a part of a union widens to. -/
def State.widenPart (s : State) (t : TypeId) : TypeId := (s.baseOf? t).getD t

/-- Whether a type is an object literal that nothing has received yet. -/
def State.isFresh (s : State) (t : TypeId) : Bool :=
  match (s.typeInfo t).form with
  | .anonymous a => a.isFresh
  | _ => false

/-- Whether each part of a type has one of some flags. -/
def State.allParts (s : State) (t : TypeId) (mask : TypeFlags) : Bool :=
  (s.parts t).all fun p => (s.typeInfo p).flags.meets mask

/-- Whether a part of a type has one of some flags. -/
def State.somePart (s : State) (t : TypeId) (mask : TypeFlags) : Bool :=
  (s.parts t).any fun p => (s.typeInfo p).flags.meets mask

/-- Whether a literal type keeps its value where a type is expected. -/
def State.isLiteralOf (s : State) (t : TypeId) (expected : Option TypeId) : Bool :=
  match expected, s.baseOf? t with
  | some e, some _ =>
    let f := (s.typeInfo t).flags
    if f.meets TypeFlags.stringLiteral then s.somePart e TypeFlags.stringLiteral
    else if f.meets TypeFlags.numberLiteral then s.somePart e (TypeFlags.numberLiteral ||| TypeFlags.enum)
    else s.somePart e TypeFlags.booleanLiteral
  | _, _ => false

namespace Check

def allParts (t : TypeId) (mask : TypeFlags) : Check Bool := return (← get).allParts t mask

def somePart (t : TypeId) (mask : TypeFlags) : Check Bool := return (← get).somePart t mask

/-- The type with literals replaced by what they widen to. -/
def widenLiteral (t : TypeId) : Check TypeId := do
  if (← isUnion t) then
    let s ← get
    union ((s.parts t).map s.widenPart)
  else return (← get).widenPart t

/-- The type without the freshness of an object literal. -/
def regular (t : TypeId) : Check TypeId := do
  let info ← typeInfo t
  match info.form with
  | .anonymous a =>
    if a.isFresh then
      match a.regular with
      | some r => return r
      | none =>
        let r ← newType { info with form := .anonymous { a with isFresh := false }, givenName := none }
        modifyType t fun i => { i with form := .anonymous { a with regular := some r } }
        return r
    else return t
  | _ => return t

def widen (t : TypeId) : Check TypeId := do regular (← widenLiteral t)

/-- The type without `undefined` and `void` among its parts. -/
def removeUndefined (t : TypeId) : Check TypeId := do
  if (← isUnion t) then
    let s ← get
    union ((s.parts t).filter fun p => !(s.typeInfo p).flags.meets TypeFlags.voidLike)
  else return t

/-- Whether `undefined` or `void` is among the parts of a type. -/
def containsUndefined (t : TypeId) : Check Bool := somePart t TypeFlags.voidLike

/-- The type of an expression where a type is expected: literals widen unless they are expected. -/
def widenFor (t : TypeId) (expected : Option TypeId) : Check TypeId := do
  let s ← get
  let widenOne (p : TypeId) : TypeId := if s.isLiteralOf p expected then p else s.widenPart p
  if (← isUnion t) then union ((s.parts t).map widenOne)
  else return widenOne t

/-- The type, with `undefined` beside it if a symbol may be left out. -/
def addOptional (t : TypeId) (optional : Bool) : Check TypeId := do
  if optional then union [t, undefinedType] else return t

end Check

end Fragment.Typing
