import Fragment.Typing.Related
import Mathlib.Logic.Relation

/-! The rules of the two relations, without the order in which questions are asked.
Each question comes down to a plan: a positive combination of further questions. A set of questions
is consistent if the plan of each of them holds when the set answers, and a question holds if some
consistent set has it. Types that mention themselves make questions lead back to themselves. -/
namespace Fragment.Typing

/-- What a question comes down to. -/
inductive Plan where
  | known (b : Bool)
  | ask (k : RelationKey)
  | both (a b : Plan)
  | either (a b : Plan)

namespace Plan

/-- Whether the plan holds under some answers. -/
def holds (answer : RelationKey → Bool) : Plan → Bool
  | known b => b
  | ask k => answer k
  | both a b => a.holds answer && b.holds answer
  | either a b => a.holds answer || b.holds answer

/-- The questions of the plan. -/
def questions : Plan → List RelationKey
  | known _ => []
  | ask k => [k]
  | both a b | either a b => a.questions ++ b.questions

def all {α : Type} (f : α → Plan) (xs : List α) : Plan := xs.foldr (fun x p => both (f x) p) (known true)

def any {α : Type} (f : α → Plan) (xs : List α) : Plan := xs.foldr (fun x p => either (f x) p) (known false)

theorem holdsMono {p q : RelationKey → Bool} (plan : Plan) (below : ∀ k, p k = true → q k = true)
    (ok : plan.holds p = true) : plan.holds q = true := by
  induction plan with
  | known b => exact ok
  | ask k => exact below k ok
  | both a b left right =>
    unfold holds at ok ⊢
    simp only [Bool.and_eq_true] at ok ⊢
    exact ⟨left ok.1, right ok.2⟩
  | either a b left right =>
    simp only [holds, Bool.or_eq_true] at ok ⊢
    exact ok.imp left right

end Plan

namespace State

variable (st : State)

def membersOf (t : TypeId) : Members := (st.typeInfo t).members.getD {}

def propertiesOf (t : TypeId) : List SymbolId := (st.membersOf t).properties.map (·.2)

def signaturesOf (t : TypeId) : List SignatureId := (st.membersOf t).signatures

def valueType (x : SymbolId) : TypeId := (st.symbol x).type.getD anyType

def resultType (g : SignatureId) : TypeId := ((st.signature? g).bind (·.result)).getD anyType

/-- The global interface without type parameters under a name. -/
def globalInterface? (name : String) : Option TypeId :=
  match (st.scopes[globalScope]?).bind (·.names[name]?) with
  | none => none
  | some x =>
    if !(st.symbol x).flags.meets SymbolFlags.interface then none
    else
      let declared := (st.symbol x).declaredType.getD errorType
      match (st.typeInfo declared).form with
      | .interface params => if params.length = 0 then some declared else none
      | _ => none

/-- The type whose members a primitive value has. -/
def wrapperOf (t : TypeId) : TypeId :=
  let flags := (st.typeInfo t).flags
  if flags.meets TypeFlags.stringLike then (st.globalInterface? "String").getD emptyObjectType
  else if flags.meets TypeFlags.numberLike then (st.globalInterface? "Number").getD emptyObjectType
  else if flags.meets TypeFlags.booleanLike then (st.globalInterface? "Boolean").getD emptyObjectType
  else t

/-- The property of a type that is no union. -/
def propertyOf? (t : TypeId) (name : String) : Option SymbolId :=
  let t := if (st.typeInfo t).flags.meets TypeFlags.primitive then st.wrapperOf t else t
  (st.membersOf t).properties.lookup name

/-- Whether an object literal for this type is held to its properties. -/
def limits : Nat → TypeId → Bool
  | 0, _ => false
  | fuel + 1, t =>
    match (st.typeInfo t).form with
    | .union types | .intersection types =>
      (types.filter fun p => !(st.typeInfo p).flags.meets TypeFlags.voidLike).all (limits fuel)
    | .interface _ | .reference .. | .anonymous _ =>
      !(st.propertiesOf t).isEmpty || (st.signaturesOf t).isEmpty
    | _ => false

/-- Whether an object literal for this type may have a property. -/
def knows (name : String) : Nat → TypeId → Bool
  | 0, _ => false
  | fuel + 1, t =>
    match (st.typeInfo t).form with
    | .union types | .intersection types => types.any (knows name fuel)
    | .interface _ | .reference .. | .anonymous _ | .array _ =>
      ((st.propertiesOf t).isEmpty && (st.signaturesOf t).isEmpty) || (st.propertyOf? t name).isSome
    | _ => false

/-- The first property of an object literal that the target does not know. -/
def excess? (source target : TypeId) : Option SymbolId :=
  if st.limits (target + 1) target then
    (st.propertiesOf source).find? fun x => !st.knows (st.symbol x).name (target + 1) target
  else none

/-- A signature in the place of another. -/
def signaturePlan (r : Relation) (source target : SignatureId) : Plan :=
  match st.signature? source, st.signature? target with
  | some s, some t =>
    if !t.hasRest && s.least > t.parameters.length then .known false
    else .both
      (.all (fun (x, y) => .either (.ask (r, st.valueType y, st.valueType x))
        (.ask (r, st.valueType x, st.valueType y))) (s.parameters.zip t.parameters))
      (if (st.typeInfo (st.resultType target)).flags.meets TypeFlags.void then .known true
        else .ask (r, st.resultType source, st.resultType target))
  | _, _ => .known false

/-- A property in the place of one of the target. -/
def propertyPlan (r : Relation) (source : TypeId) (wanted : SymbolId) : Plan :=
  match st.propertyOf? source (st.symbol wanted).name with
  | none => .known (st.symbol wanted).isOptional
  | some x =>
    if (st.symbol x).isOptional && !(st.symbol wanted).isOptional && r = .assignable then .known false
    else .ask (r, st.valueType x, st.valueType wanted)

def membersPlan (r : Relation) (source target : TypeId) : Plan :=
  .both (.all (st.propertyPlan r source) (st.propertiesOf target))
    (.all (fun t => .any (st.signaturePlan r · t) (st.signaturesOf source)) (st.signaturesOf target))

def objectPlan (r : Relation) (source target : TypeId) : Plan :=
  match (st.typeInfo source).form, (st.typeInfo target).form with
  | .reference a given, .reference b wanted =>
    if a = b then .all (fun (x, y) => .ask (r, x, y)) (given.zip wanted)
    else st.membersPlan r source target
  | .array a, .array b => .ask (r, a, b)
  | _, .array _ => .known false
  | _, _ => st.membersPlan r source target

/-- What a question comes down to between types without parts. -/
def plainPlan (r : Relation) (source target : TypeId) : Plan :=
  if !(st.typeInfo target).flags.meets TypeFlags.object then .known false
  else if (st.typeInfo source).flags.meets TypeFlags.primitive then
    if st.wrapperOf source = source then .known false
    else st.objectPlan r (st.wrapperOf source) target
  else if (st.typeInfo source).flags.meets TypeFlags.object then st.objectPlan r source target
  else .known false

/-- What a question comes down to where flags do not decide it. -/
def structurePlan (r : Relation) (source target : TypeId) : Plan :=
  match (st.typeInfo source).form, (st.typeInfo target).form with
  | .union types, _ =>
    if r = .comparable then .any (fun s => .ask (r, s, target)) types
    else .all (fun s => .ask (r, s, target)) types
  | _, .union types => .any (fun t => .ask (r, source, t)) types
  | .typeParameter (some bound), _ => .ask (r, bound, target)
  | .typeParameter none, _ => .known false
  | _, .typeParameter _ => .known false
  | _, .intersection types => .all (fun t => .ask (r, source, t)) types
  | .intersection types, _ =>
    .either (.any (fun s => .ask (r, s, target)) types) (st.objectPlan r source target)
  | _, _ => st.plainPlan r source target

/-- What a question comes down to. -/
def plan : RelationKey → Plan
  | (r, source, target) =>
    if source = target then .known true
    else match st.simplyRelated r source target with
      | some b => .known b
      | none =>
        if (r = .assignable && st.isFresh source) && (st.excess? source target).isSome then .known false
        else st.structurePlan r source target

/-- A set in which every question is borne out by the others. -/
def Consistent (R : RelationKey → Bool) : Prop := ∀ k, R k = true → (st.plan k).holds R = true

/-- A question holds if some consistent set has it. -/
def Holds (k : RelationKey) : Prop := ∃ R, st.Consistent R ∧ R k = true

/-- The questions that hold, as answers. -/
noncomputable def truth (k : RelationKey) : Bool := by classical exact decide (st.Holds k)

theorem truthIff (k : RelationKey) : st.truth k = true ↔ st.Holds k := by simp [truth]

theorem truthConsistent : st.Consistent st.truth := by
  intro k holds
  obtain ⟨R, consistent, member⟩ := (st.truthIff k).mp holds
  refine (st.plan k).holdsMono (fun other inside => ?_) (consistent k member)
  exact (st.truthIff other).mpr ⟨R, consistent, inside⟩

/-- The questions that hold are exactly those whose plans hold. -/
theorem truthPlan (k : RelationKey) : (st.plan k).holds st.truth = st.truth k := by
  cases planned : (st.plan k).holds st.truth with
  | false =>
    cases known : st.truth k with
    | false => rfl
    | true => exact planned.symm.trans (st.truthConsistent k known)
  | true =>
    -- The true questions together with `k` are consistent, as plans are monotone.
    have consistent : st.Consistent fun other => st.truth other || decide (other = k) := by
      intro other inside
      refine (st.plan other).holdsMono (p := st.truth) (fun x hx => by simp [hx]) ?_
      simp only [Bool.or_eq_true, decide_eq_true_eq] at inside
      rcases inside with inside | rfl
      · exact st.truthConsistent other inside
      · exact planned
    exact ((st.truthIff k).mpr ⟨_, consistent, by simp⟩).symm

/-- One question comes up in the plan of another. -/
def Raises (k k' : RelationKey) : Prop := k' ∈ (st.plan k).questions

/-- Every question that this one leads to and that leads back to itself holds. -/
def Steady (k : RelationKey) : Prop :=
  ∀ k', Relation.ReflTransGen st.Raises k k' → Relation.TransGen st.Raises k' k' → st.Holds k'

variable {st}

theorem Steady.raised {k k' : RelationKey} (steady : st.Steady k) (raised : st.Raises k k') :
    st.Steady k' := by
  intro far path
  exact steady far (Relation.ReflTransGen.head raised path)

end State

end Fragment.Typing
