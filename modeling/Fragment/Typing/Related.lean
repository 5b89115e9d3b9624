import Fragment.Typing.Member

/-! Assignability and comparability.
Both relations are structural. Primitive types are decided by their flags; object types property by
property and signature by signature; references to one interface argument by argument. An object
literal that nothing has received yet also fails if it has a property that the target does not know.
A question that comes up while it is being answered holds. -/
namespace Fragment.Typing

/-- The number of a literal type. -/
def State.numberOf? (s : State) (t : TypeId) : Option Number :=
  match (s.typeInfo t).form with
  | .literal (.number n) _ | .enumLiteral n _ => some n
  | _ => none

/-- Whether two literal types have the same number. -/
def State.sameNumber (s : State) (a b : TypeId) : Bool :=
  match s.numberOf? a, s.numberOf? b with
  | some m, some n => m.equals n
  | _, _ => false

/-- Whether an enumeration has a member with the number of a literal type. -/
def State.enumHasNumber (s : State) (enumType literal : TypeId) : Bool :=
  match (s.typeInfo enumType).form, s.numberOf? literal with
  | .enum members, some n => members.any fun x => (s.symbol x).enumValue.any (·.equals n)
  | _, _ => false

/-- What flags alone say when the source is a number, literal or not. -/
def State.numbersRelated (st : State) (r : Relation) (source target : TypeId) : Option Bool :=
  let s := (st.typeInfo source).flags
  let t := (st.typeInfo target).flags
  if s.meets TypeFlags.enumLiteral then
    if t.meets TypeFlags.enumLiteral then
      some (st.baseOf? source == st.baseOf? target && st.sameNumber source target)
    else if t.meets TypeFlags.enum then some (st.baseOf? source == some target)
    else if t.meets TypeFlags.number then some true
    else if t.meets TypeFlags.numberLiteral then some (r = .comparable && st.sameNumber source target)
    else none
  else if s.meets TypeFlags.numberLiteral then
    if t.meets TypeFlags.number then some true
    else if t.meets TypeFlags.numberLiteral then some (st.sameNumber source target)
    else if t.meets TypeFlags.enum then some (st.enumHasNumber target source)
    else none
  else if s.meets TypeFlags.number then
    if t.meets (TypeFlags.number ||| TypeFlags.enum) then some true
    else if t.meets TypeFlags.numberLiteral then some (r = .comparable)
    else none
  else if s.meets TypeFlags.enum then
    if t.meets TypeFlags.number then some true
    else if t.meets TypeFlags.enumLiteral then some (r = .comparable && st.baseOf? target == some source)
    else none
  else none

/-- What flags alone say about two types; `none` leaves the question to their structure. -/
def State.simplyRelated (st : State) (r : Relation) (source target : TypeId) : Option Bool :=
  let s := (st.typeInfo source).flags
  let t := (st.typeInfo target).flags
  if t.meets TypeFlags.anyOrUnknown || s.meets TypeFlags.never then some true
  else if t.meets TypeFlags.never then some false
  else if s.meets TypeFlags.any then some true
  else if s.meets TypeFlags.unknown then some false
  else if s.meets TypeFlags.union || t.meets TypeFlags.union then none
  else if s.meets TypeFlags.typeParameter || t.meets TypeFlags.typeParameter then none
  else if s.meets TypeFlags.stringLike && t.meets TypeFlags.string then some true
  else match st.numbersRelated r source target with
    | some b => some b
    | none =>
      if s.meets TypeFlags.booleanLike && t.meets TypeFlags.boolean then some true
      else if s.meets TypeFlags.boolean && t.meets TypeFlags.booleanLiteral then some (r = .comparable)
      else if s.meets TypeFlags.string && t.meets TypeFlags.stringLiteral then some (r = .comparable)
      else if s.meets TypeFlags.undefined && t.meets TypeFlags.voidLike then some true
      else if s.meets TypeFlags.void && t.meets TypeFlags.void then some true
      else if s.meets TypeFlags.primitive && t.meets TypeFlags.primitive then some false
      else if s.meets TypeFlags.object && t.meets TypeFlags.primitive then some false
      else if s.meets TypeFlags.voidLike then some false
      else none

/-- The first of some questions that holds, asked in turn. -/
def anyHolds {α : Type} (ask : α → Check Bool) : List α → Check Bool
  | [] => return false
  | x :: xs => do if (← ask x) then return true else anyHolds ask xs

/-- Whether some questions all hold, asked in turn until one does not. -/
def allHold {α : Type} (ask : α → Check Bool) : List α → Check Bool
  | [] => return true
  | x :: xs => do if (← ask x) then allHold ask xs else return false

/-- The first refusal among some questions, asked in turn. -/
def firstRefusal {α : Type} (ask : α → Check Outcome) : List α → Check Outcome
  | [] => return { holds := true }
  | x :: xs => do
    let o ← ask x
    if o.holds then firstRefusal ask xs else return o

namespace Queries

open Check

variable (q : Queries)

/-- Whether an object literal for this type is held to its properties: a type without any, or that is
only called, takes everything. The parts of a type have smaller numbers, which bounds `fuel`. -/
def limitsProperties : (fuel : Nat) → TypeId → Check Bool
  | 0, _ => return false
  | fuel + 1, t => do
    match (← form t) with
    | .union types | .intersection types =>
      let s ← get
      allHold (limitsProperties fuel) (types.filter fun p => !(s.typeInfo p).flags.meets TypeFlags.voidLike)
    | .interface _ | .reference .. | .anonymous _ =>
      if (← q.properties t).isEmpty then return (← q.signatures t).isEmpty
      else return true
    | _ => return false

/-- Whether an object literal for this type may have a property. -/
def knowsProperty (name : String) : (fuel : Nat) → TypeId → Check Bool
  | 0, _ => return false
  | fuel + 1, t => do
    match (← form t) with
    | .union types | .intersection types => anyHolds (knowsProperty name fuel) types
    | .interface _ | .reference .. | .anonymous _ | .array _ =>
      if (← q.properties t).isEmpty then
        if (← q.signatures t).isEmpty then return true
      return (← q.property t name).isSome
    | _ => return false

/-- The first property of an object literal that the target does not know. -/
def excessProperty (source target : TypeId) : Check (Option SymbolId) := do
  if !(← q.limitsProperties (target + 1) target) then return none
  find target (← q.properties source)
where
  find (target : TypeId) : List SymbolId → Check (Option SymbolId)
    | [] => return none
    | x :: xs => do
      if (← q.knowsProperty (← symbol x).name (target + 1) target) then find target xs else return some x

/-- A refusal, with a note that names both types if reasons are asked for. -/
def refuse (explain : Bool) (source target : TypeId) (message : String → String → Message) : Check Outcome := do
  if explain then
    let s ← q.textOf source
    let t ← q.textOf target
    return { holds := false, notes := [(message s t).text] }
  else return { holds := false }

/-- Adds what is noted last to a refusal. -/
def Outcome.followedBy (o last : Outcome) : Outcome :=
  { last with notes := o.notes ++ last.notes, excess := last.excess.or o.excess }

/-- Whether a signature can stand for another. Parameters may be related either way. -/
def signatureRelated (r : Relation) (source target : SignatureId) : Check Bool := do
  let s ← signature source
  let t ← signature target
  if !t.hasRest && s.least > t.parameters.length then return false
  let ok ← allHold (fun (x, y) => do
    let left ← q.typeOfSymbol x
    let right ← q.typeOfSymbol y
    if (← q.relate r false right left).holds then return true
    return (← q.relate r false left right).holds) (s.parameters.zip t.parameters)
  if !ok then return false
  let result ← q.resultOf target
  if (← hasFlag result TypeFlags.void) then return true
  return (← q.relate r false (← q.resultOf source) result).holds

/-- Whether a type has a property that can stand for one of the target. -/
def propertyRelated (r : Relation) (explain : Bool) (source target : TypeId) (wanted : SymbolId) : Check Outcome := do
  let w ← symbol wanted
  match (← q.property source w.name) with
  | none =>
    if w.isOptional then return { holds := true }
    q.refuse explain source target (.propertyMissing w.name)
  | some x =>
    if (← symbol x).isOptional && !(← symbol wanted).isOptional && r = .assignable then
      q.refuse explain source target (.propertyOptional w.name)
    else
      let left ← q.typeOfSymbol x
      let right ← q.typeOfSymbol wanted
      if (← q.relate r false left right).holds then return { holds := true }
      if explain then
        let inner ← q.relate r true left right
        let last ← q.refuse true left right .notAssignable
        let first : Outcome := { holds := false, notes := [(Message.propertyTypesDiffer w.name).text] }
        return Outcome.followedBy (Outcome.followedBy first inner) last
      return { holds := false }

/-- Whether a type has all members of the target. -/
def membersRelated (r : Relation) (explain : Bool) (source target : TypeId) : Check Outcome := do
  let o ← firstRefusal (q.propertyRelated r explain source target) (← q.properties target)
  if !o.holds then return o
  match (← q.signatures target) with
  | [] => return { holds := true }
  | wanted =>
    let given ← q.signatures source
    if (← allHold (fun t => anyHolds (q.signatureRelated r · t) given) wanted) then return { holds := true }
    q.refuse explain source target .notAssignable

/-- The relation between object types. -/
def objectRelated (r : Relation) (explain : Bool) (source target : TypeId) : Check Outcome := do
  match (← form source), (← form target) with
  | .reference a given, .reference b wanted =>
    if a = b then
      let o ← firstRefusal (fun (x, y) => q.relate r explain x y) (given.zip wanted)
      if o.holds then return { holds := true }
      return Outcome.followedBy o (← q.refuse explain source target .notAssignable)
    else q.membersRelated r explain source target
  | .array a, .array b => q.relate r explain a b
  | _, .array _ => return { holds := false }
  | _, _ => q.membersRelated r explain source target

/-- The relation where flags do not decide. -/
def structurallyRelated (r : Relation) (explain : Bool) (source target : TypeId) : Check Outcome := do
  match (← form source), (← form target) with
  | .union types, _ =>
    if r = .comparable then
      return { holds := ← anyHolds (fun s => return (← q.relate r false s target).holds) types }
    else firstRefusal (q.relate r explain · target) types
  | _, .union types =>
    if (← anyHolds (fun t => return (← q.relate r false source t).holds) types) then return { holds := true }
    q.refuse explain source target .notAssignable
  | .typeParameter (some bound), _ => q.relate r explain bound target
  | .typeParameter none, _ => return { holds := false }
  | _, .typeParameter _ => return { holds := false }
  | _, .intersection types => firstRefusal (q.relate r explain source) types
  | .intersection types, _ =>
    if (← anyHolds (fun s => return (← q.relate r false s target).holds) types) then return { holds := true }
    q.objectRelated r explain source target
  | _, _ =>
    let s ← flags source
    if !(← hasFlag target TypeFlags.object) then return { holds := false }
    if s.meets TypeFlags.primitive then
      let apparent ← q.apparent source
      if apparent = source then return { holds := false }
      q.objectRelated r explain apparent target
    else if s.meets TypeFlags.object then q.objectRelated r explain source target
    else return { holds := false }

/-- The answer where flags and excess properties leave a question open. Answers without reasons are
kept, and a question that is open already holds. -/
def keptRelated (r : Relation) (explain : Bool) (source target : TypeId) : Check Outcome := do
  let key : RelationKey := (r, source, target)
  let known := (← get).relations[key]?
  match (if explain then none else known) with
  | some b => return { holds := b }
  | none =>
    if (← get).relating.contains key then return { holds := true }
    modify fun s => { s with relating := key :: s.relating }
    let o ← q.structurallyRelated r explain source target
    modify fun s => { s with relating := s.relating.erase key }
    unless explain do modify fun s => { s with relations := s.relations.insert key o.holds }
    return o

/-- Whether a relation holds between two types. -/
def computeRelated (r : Relation) (explain : Bool) (source target : TypeId) : Check Outcome := do
  if source = target then return { holds := true }
  match (← get).simplyRelated r source target with
  | some b => return { holds := b }
  | none =>
    if r = .assignable && (← get).isFresh source then
      match (← q.excessProperty source target) with
      | some x => return { holds := false, excess := some (x, target) }
      | none => q.keptRelated r explain source target
    else q.keptRelated r explain source target

end Queries

end Fragment.Typing
