import Fragment.Proofs.Keeping

/-! What the parts of the checker that look at types keep.
Each part keeps that names and accesses are told apart, if the answers that it asks for do. -/
namespace Fragment.Typing

open Fragment.Source (TypeNode TypeMember Param TypeParam Tags)

/-- Answers that keep a condition. An expression has to be labelled itself. -/
class Level (Q : outParam (String → Prop)) (A : outParam Tags) (I : State → Prop) (q : Queries) : Prop where
  typeOfSymbol : ∀ x, Keeps I (q.typeOfSymbol x)
  declaredType : ∀ x, Keeps I (q.declaredType x)
  typeOfNode : ∀ node scope, Keeps I (q.typeOfNode node scope)
  instantiate : ∀ t mapper, Keeps I (q.instantiate t mapper)
  members : ∀ t, Keeps I (q.members t)
  property : ∀ t name, Keeps I (q.property t name)
  resultOf : ∀ g, Keeps I (q.resultOf g)
  relate : ∀ r explain source target, Keeps I (q.relate r explain source target)
  typeOfExpr : ∀ e : Source.Expr, e.Labelled Q A → ∀ expected, Keeps I (q.typeOfExpr e expected)
  write : ∀ t depth, Keeps I (q.write t depth)
  apparent : ∀ t, Keeps I (q.apparent t)
  awaited : ∀ t, Keeps I (q.awaited t)

attribute [instance] Level.typeOfSymbol Level.declaredType Level.typeOfNode Level.instantiate Level.members
  Level.property Level.resultOf Level.relate Level.write Level.apparent Level.awaited

variable {Q : String → Prop} {A : Tags} {I : State → Prop} [lasting : Lasting Q A I] {q : Queries}

open Check

/-! Making types -/

instance typeInfoKeeps (t : TypeId) : Keeps I (typeInfo t) := by
  unfold typeInfo
  infer_instance

instance flagsKeeps (t : TypeId) : Keeps I (flags t) := by
  unfold flags
  infer_instance

instance formKeeps (t : TypeId) : Keeps I (form t) := by
  unfold form
  infer_instance

instance hasFlagKeeps (t : TypeId) (mask : TypeFlags) : Keeps I (hasFlag t mask) := by
  unfold hasFlag
  infer_instance

instance partsKeeps (t : TypeId) : Keeps I (parts t) := by
  unfold parts
  refine .bind inferInstance fun f => ?_
  split <;> infer_instance

instance isUnionKeeps (t : TypeId) : Keeps I (isUnion t) := by
  unfold isUnion
  refine .bind inferInstance fun f => ?_
  split <;> infer_instance

instance textLiteralKeeps (t : String) : Keeps I (textLiteral t) := by
  unfold textLiteral
  refine .bind inferInstance fun s => ?_
  split <;> infer_instance

instance numberLiteralKeeps (n : Number) : Keeps I (numberLiteral n) := by
  unfold numberLiteral
  refine .bind inferInstance fun s => ?_
  split <;> infer_instance

instance arrayOfKeeps (element : TypeId) : Keeps I (arrayOf element) := by
  unfold arrayOf
  refine .bind inferInstance fun s => ?_
  split <;> infer_instance

instance referenceToKeeps (target : TypeId) (args : List TypeId) :
    Keeps I (referenceTo target args) := by
  unfold referenceTo
  refine .bind inferInstance fun s => ?_
  split <;> infer_instance

instance namedUnionKeeps (types : List TypeId) (givenName : Option String) :
    Keeps I (namedUnion types givenName) := by
  unfold namedUnion
  refine .bind inferInstance fun s => ?_
  split
  · infer_instance
  · refine .bind inferInstance fun s => ?_
    split <;> infer_instance

instance unionKeeps (types : List TypeId) : Keeps I (union types) := namedUnionKeeps types none

instance intersectionKeeps (types : List TypeId) : Keeps I (intersection types) := by
  unfold intersection
  refine .bind inferInstance fun s => ?_
  extract_lets all includes known
  clear_value known
  repeat' first | infer_instance | refine .bind inferInstance fun _ => ?_ | split

instance allPartsKeeps (t : TypeId) (mask : TypeFlags) : Keeps I (allParts t mask) := by
  unfold allParts
  infer_instance

instance somePartKeeps (t : TypeId) (mask : TypeFlags) : Keeps I (somePart t mask) := by
  unfold somePart
  infer_instance

instance widenLiteralKeeps (t : TypeId) : Keeps I (widenLiteral t) := by
  unfold widenLiteral
  infer_instance

instance regularKeeps (t : TypeId) : Keeps I (regular t) := by
  unfold regular
  repeat' first | infer_instance | refine .bind inferInstance fun _ => ?_ | split

instance widenKeeps (t : TypeId) : Keeps I (widen t) := by
  unfold widen
  infer_instance

instance removeUndefinedKeeps (t : TypeId) : Keeps I (removeUndefined t) := by
  unfold removeUndefined
  infer_instance

instance containsUndefinedKeeps (t : TypeId) : Keeps I (containsUndefined t) :=
  somePartKeeps t TypeFlags.voidLike

instance widenForKeeps (t : TypeId) (expected : Option TypeId) : Keeps I (widenFor t expected) := by
  unfold widenFor
  infer_instance

instance addOptionalKeeps (t : TypeId) (optional : Bool) : Keeps I (addOptional t optional) := by
  unfold addOptional
  infer_instance

instance resolveKeeps (name : String) (scope : ScopeId) (meaning : SymbolFlags) :
    Keeps I (resolve name scope meaning) := by
  unfold resolve
  infer_instance

/-! Global types, promises and texts -/

namespace Queries

variable [Level Q A I q]

instance globalTypeKeeps (name : String) (arity : Nat) : Keeps I (q.globalType name arity) := by
  unfold globalType globalType.lookupGlobal
  repeat' first | infer_instance | refine .bind inferInstance fun _ => ?_ | split

instance promiseTypeKeeps : Keeps I q.promiseType := globalTypeKeeps "Promise" 1

instance promisedKeeps (t : TypeId) : Keeps I (q.promised t) := by
  unfold promised
  repeat' first | infer_instance | refine .bind inferInstance fun _ => ?_ | split

instance promiseOfKeeps (t : TypeId) : Keeps I (q.promiseOf t) := by
  unfold promiseOf
  refine .bind inferInstance fun found => ?_
  split <;> infer_instance

instance computeAwaitedKeeps (t : TypeId) : Keeps I (q.computeAwaited t) := by
  unfold computeAwaited
  repeat' first | infer_instance | refine .bind inferInstance fun _ => ?_ | split

instance computeApparentKeeps (t : TypeId) : Keeps I (q.computeApparent t) := by
  unfold computeApparent
  refine .bind inferInstance fun info => ?_
  split <;> infer_instance

instance presentTypeKeeps (x : SymbolId) : Keeps I (q.presentType x) := by
  unfold presentType
  infer_instance

instance assignableKeeps (source target : TypeId) : Keeps I (q.assignable source target) := by
  unfold assignable
  infer_instance

instance comparableKeeps (source target : TypeId) : Keeps I (q.comparable source target) := by
  unfold comparable
  infer_instance

instance textOfKeeps (t : TypeId) : Keeps I (q.textOf t) := Level.write t 0

/-! Written types -/

instance paramNameKeeps (p : TypeId) : Keeps I (namedType.paramName p) := by
  unfold namedType.paramName
  refine .bind inferInstance fun info => ?_
  split <;> infer_instance

instance namedTypeKeeps (mark : Source.Mark) (name : String) (args : List TypeNode) (scope : TypeScope) :
    Keeps I (q.namedType mark name args scope) := by
  unfold namedType
  repeat' first | infer_instance | refine .bind inferInstance fun _ => ?_ | split

instance computeAnnotationKeeps (node : TypeNode) (scope : TypeScope) :
    Keeps I (q.computeAnnotation node scope) := by
  unfold computeAnnotation
  split <;> infer_instance

instance annotationKeeps (node : TypeNode) (scope : TypeScope) :
    Keeps I <| q.annotation node scope := by
  unfold annotation
  refine .bind inferInstance fun s => ?_
  split <;> infer_instance

/-! Enumerations -/

instance memberValueKeeps (t : TypeId) (name : String) : Keeps I (memberValue? t name) := by
  unfold memberValue?
  refine .bind inferInstance fun f => ?_
  split <;> infer_instance

instance constantValueKeeps (self : SymbolId) (selfType : TypeId) (e : Source.Expr) :
    Keeps I (q.constantValue self selfType e) := by
  fun_induction q.constantValue self selfType e
  all_goals repeat' first | infer_instance | refine .bind inferInstance fun _ => ?_ | split

instance initialValueKeeps (self : SymbolId) (selfType : TypeId) (next : Number) (init : Option Source.Expr) :
    Keeps I (q.initialValue self selfType next init) := by
  unfold initialValue
  split
  · infer_instance
  · refine .bind inferInstance fun found => ?_
    split <;> infer_instance

instance addEnumMembersKeeps (self : SymbolId) (selfType : TypeId) (next : Number) (members : List Source.EnumMember) :
    Keeps I (q.addEnumMembers self selfType next members) := by
  induction members generalizing next with
  | nil => exact pureKeeps _
  | cons m rest ih =>
    obtain ⟨mark, name, init⟩ := m
    unfold addEnumMembers
    refine .bind inferInstance fun taken => .bind inferInstance fun s => ?_
    extract_lets isTaken
    split
    · infer_instance
    · refine .bind inferInstance fun value => .bind (.newSymbol ⟨?_, ?_⟩) inferInstance
      · unfold Declaration.Labelled
        simp
      · unfold Declaration.Labelled
        simp

instance declareEnumKeeps (x : SymbolId) : Keeps I (q.declareEnum x) := by
  unfold declareEnum
  refine .bind inferInstance fun t => .bind inferInstance fun _ => .bind inferInstance fun s => .bind ?_ inferInstance
  refine .forIn fun d _ _ => ?_
  split <;> infer_instance

instance enumObjectKeeps (x : SymbolId) : Keeps I (q.enumObject x) := by
  unfold enumObject
  refine .bind inferInstance fun t => .bind inferInstance fun f => ?_
  dsimp only
  split <;> infer_instance

end Queries

/-! Instances of generic types -/

instance anonymousInstanceKeeps (target : TypeId) (mapper : Mapper) :
    Keeps I (anonymousInstance target mapper) := by
  unfold anonymousInstance
  refine .bind inferInstance fun s => ?_
  split <;> infer_instance

instance instanceSymbolKeeps (x : SymbolId) (mapper : Mapper) :
    Keeps I (instanceSymbol x mapper) :=
  .symbol fun _ l => .newSymbol ⟨l.declarations, l.value⟩

instance instanceSignatureKeeps (g : SignatureId) (mapper : Mapper) :
    Keeps I (instanceSignature g mapper) :=
  .signature fun _ l => .bind inferInstance fun _ => .newSignature l

instance instanceMembersKeeps (m : Members) (mapper : Mapper) :
    Keeps I (instanceMembers m mapper) := by
  unfold instanceMembers
  infer_instance

/-! Members -/

instance parameterSymbolKeeps (scope : TypeScope) (p : Param) :
    Keeps I (parameterSymbol scope p) := by
  unfold parameterSymbol
  refine .bind inferInstance fun s => ?_
  dsimp only
  split
  · infer_instance
  · refine .bind (.newSymbol ⟨?_, ?_⟩) inferInstance
    · simp [Declaration.Labelled]
    · simp [Declaration.Labelled]

include lasting in
theorem Keeps.signatureOf {f : FunctionNode} (labelled : f.Labelled Q A) (scope : TypeScope) :
    Keeps I (signatureOf f scope) := by
  unfold Check.signatureOf
  refine .bind inferInstance fun s => ?_
  split
  · infer_instance
  · exact .bind inferInstance fun parameters => .bind (.newSignature labelled) inferInstance

theorem memberDeclarationLabelled (m : TypeMember) : (memberDeclaration m).Labelled Q A := by
  cases m <;> exact trivial

/-- Properties that are being put together from labelled declarations. -/
def Drafted (I : State → Prop) (Q : String → Prop) (A : Tags) (drafts : List Draft) : Prop :=
  ∀ d ∈ drafts, Fresh I Q A d.symbol ∧ ∀ r ∈ d.declarations, r.2.Labelled Q A

section Drafts

include lasting

theorem addMemberGives {drafts : List Draft} (drafted : Drafted I Q A drafts) (scope : TypeScope) (rank : Nat)
    (seen : List String) (m : TypeMember) :
    Gives I (fun r => Drafted I Q A r.2) (addMember scope rank seen drafts m) := by
  have named (name : String) (isMethod optional : Bool) :
      Gives I (fun r => Drafted I Q A r.2) (addNamed scope rank seen drafts m name isMethod optional) := by
    unfold addNamed
    split
    · refine .knowing (newSymbolGives ⟨nofun, nofun⟩) fun x fresh => .pure fun d member => ?_
      rcases List.mem_append.mp member with old | new
      · exact drafted d old
      · obtain rfl := List.mem_singleton.mp new
        exact ⟨fresh, by simpa using memberDeclarationLabelled m⟩
    next d found =>
      split
      · exact .bind fun _ => .pure drafted
      · have added : Drafted I Q A (drafts.map fun d =>
            if d.name = name then { d with declarations := d.declarations ++ [(rank, memberDeclaration m)] } else d) := by
          intro d member
          obtain ⟨old, there, rfl⟩ := List.mem_map.mp member
          obtain ⟨fresh, labelled⟩ := drafted old there
          split
          · refine ⟨fresh, fun r inside => ?_⟩
            rcases List.mem_append.mp inside with before | new
            · exact labelled r before
            · obtain rfl := List.mem_singleton.mp new
              exact memberDeclarationLabelled m
          · exact ⟨fresh, labelled⟩
        have optionalKeeps : Keeps I (modifySymbol d.symbol fun s => { s with flags := s.flags ||| SymbolFlags.optional }) :=
          (drafted d (List.mem_of_find?_eq_some found)).1 _ ⟨fun _ => rfl, fun _ => rfl, fun _ l => ⟨l.declarations, l.value⟩⟩
        split
        · exact .bind fun _ => .pure added
        · exact .pure added
  unfold addMember
  split
  · exact named _ _ _
  · exact named _ _ _
  · exact .pure drafted

theorem addMembersGives (scope : TypeScope) (rank : Nat) (seen : List String) {drafts : List Draft} (ms : List TypeMember)
    (drafted : Drafted I Q A drafts) : Gives I (Drafted I Q A) (addMembers scope rank seen drafts ms) := by
  induction ms generalizing seen drafts with
  | nil => exact .pure drafted
  | cons m ms ih => exact .knowing (addMemberGives drafted scope rank seen m) fun r drafted => ih r.1 drafted

theorem addBodiesGives (scope : TypeScope) (rank : Nat) {drafts : List Draft} (bodies : List (List TypeMember))
    (drafted : Drafted I Q A drafts) : Gives I (Drafted I Q A) (addBodies scope rank drafts bodies) := by
  induction bodies generalizing rank drafts with
  | nil => exact .pure drafted
  | cons body bodies ih =>
    exact .knowing (addMembersGives scope rank [] body drafted) fun r drafted => ih (rank + 1) drafted

end Drafts

instance callSignaturesKeeps (scope : TypeScope) (ms : List TypeMember) :
    Keeps I (callSignatures scope ms) := by
  fun_induction callSignatures scope ms with
  | case1 => infer_instance
  | case2 mark params result ms ih =>
    have labelled : ({ mark, params, result } : FunctionNode).Labelled Q A := trivial
    exact .bind (.signatureOf labelled scope) inferInstance
  | case3 m ms _ ih => exact ih

instance declaredMembersKeeps (bodies : List (List TypeMember)) (scope : TypeScope) :
    Keeps I (declaredMembers bodies scope) := by
  unfold declaredMembers
  refine .giving (addBodiesGives scope 0 bodies nofun) fun drafts drafted => ?_
  refine .bind (.forIn fun d member _ => .bind ?_ inferInstance) inferInstance
  obtain ⟨fresh, known⟩ := drafted d member
  have labelled : ∀ e ∈ (d.declarations.mergeSort fun a b => b.1 ≤ a.1).map (·.2), e.Labelled Q A := by
    intro e inside
    obtain ⟨r, there, rfl⟩ := List.mem_map.mp inside
    exact known r (List.mem_mergeSort.mp there)
  refine fresh _ ⟨fun _ => rfl, fun _ => rfl, fun _ _ => ⟨labelled, fun e head => labelled e (List.mem_of_mem_head? head)⟩⟩

namespace Queries

variable [Level Q A I q]

instance computeInstanceKeeps (t : TypeId) (mapper : Mapper) : Keeps I (q.computeInstance t mapper) := by
  unfold computeInstance
  repeat' first | infer_instance | refine .bind inferInstance fun _ => ?_ | split

instance baseTypesKeeps (t : TypeId) (x : Symbol) : Keeps I (q.baseTypes t x) := by
  unfold baseTypes
  infer_instance

instance interfaceMembersKeeps (t : TypeId) : Keeps I (q.interfaceMembers t) := by
  unfold interfaceMembers
  refine .bind inferInstance fun info => ?_
  split <;> infer_instance

instance mergePropertyKeeps (properties : List (String × SymbolId)) (name : String) (x : SymbolId) :
    Keeps I (q.mergeProperty properties name x) := by
  unfold mergeProperty
  split
  · infer_instance
  · refine .symbol fun old oldLabelled => .symbol fun new newLabelled => ?_
    refine .bind (.newSymbol ⟨fun d member => ?_, nofun⟩) inferInstance
    exact (List.mem_append.mp member).elim (oldLabelled.declarations d) (newLabelled.declarations d)

instance intersectionMembersKeeps (types : List TypeId) : Keeps I (q.intersectionMembers types) := by
  unfold intersectionMembers
  infer_instance

instance objectMembersKeeps (t : TypeId) : Keeps I (q.objectMembers t) := by
  unfold objectMembers
  refine .bind inferInstance fun f => ?_
  split
  · exact .bind (.newSymbol ⟨nofun, nofun⟩) inferInstance
  · infer_instance
  · refine .bind inferInstance fun declared => .bind inferInstance fun f => ?_
    dsimp only
    split <;> infer_instance
  · split
    · infer_instance
    next mark params result _ _ =>
      have labelled : ({ mark, params, result := some result } : FunctionNode).Labelled Q A := trivial
      exact .bind (.signatureOf labelled _) inferInstance
    · infer_instance
    · infer_instance
  · infer_instance

instance computeMembersKeeps (t : TypeId) : Keeps I (q.computeMembers t) := by
  unfold computeMembers
  repeat' first | infer_instance | refine .bind inferInstance fun _ => ?_ | split

instance collectKeeps (name : String) (types : List TypeId) :
    Keeps I (unionProperty.collect q name types) := by
  induction types with
  | nil => exact pureKeeps _
  | cons part rest ih =>
    refine .bind inferInstance fun t => .bind inferInstance fun found => ?_
    split <;> infer_instance

theorem symbolsRun (xs : List SymbolId) (s : State) : (xs.mapM symbol).run s = .ok (xs.map s.symbol, s) := by
  induction xs with
  | nil => rfl
  | cons x xs ih =>
    rw [List.mapM_cons, StateT.run_bind]
    change (xs.mapM symbol >>= fun rest => pure (s.symbol x :: rest)).run s = _
    rw [StateT.run_bind, ih]
    rfl

instance unionPropertyKeeps (t : TypeId) (types : List TypeId) (name : String) :
    Keeps I (q.unionProperty t types name) := by
  unfold unionProperty
  refine .bind inferInstance fun s => ?_
  split
  · infer_instance
  · refine .bind inferInstance fun found => ?_
    dsimp only
    split
    · infer_instance
    · refine .knowing inferInstance fun s symbols s' l run => ?_
      rw [symbolsRun] at run
      cases run
      refine .bind (.newSymbol ⟨fun d member => ?_, nofun⟩) inferInstance
      obtain ⟨y, there, inside⟩ := List.mem_flatMap.mp member
      obtain ⟨x, -, rfl⟩ := List.mem_map.mp there
      exact (Lasting.symbol l x).declarations d inside

instance computePropertyKeeps (t : TypeId) (name : String) : Keeps I (q.computeProperty t name) := by
  unfold computeProperty
  repeat' first | infer_instance | refine .bind inferInstance fun _ => ?_ | split

instance propertiesKeeps (t : TypeId) : Keeps I (q.properties t) := by
  unfold properties
  repeat' first | infer_instance | refine .bind inferInstance fun _ => ?_ | split

instance signaturesKeeps (t : TypeId) : Keeps I (q.signatures t) := by
  unfold signatures
  refine .bind inferInstance fun f => ?_
  split
  · refine .bind inferInstance fun all => .bind (.mapM fun gs _ => ?_) fun counts => ?_
    · split <;> infer_instance
    · split <;> infer_instance
  · infer_instance

/-! Relations -/

instance limitsPropertiesKeeps (fuel : Nat) (t : TypeId) : Keeps I (q.limitsProperties fuel t) := by
  induction fuel generalizing t with
  | zero => exact pureKeeps _
  | succ fuel ih =>
    unfold limitsProperties
    refine .bind inferInstance fun f => ?_
    split <;> infer_instance

instance knowsPropertyKeeps (name : String) (fuel : Nat) (t : TypeId) :
    Keeps I (q.knowsProperty name fuel t) := by
  induction fuel generalizing t with
  | zero => exact pureKeeps _
  | succ fuel ih =>
    unfold knowsProperty
    refine .bind inferInstance fun f => ?_
    split <;> infer_instance

instance findExcessKeeps (target : TypeId) (xs : List SymbolId) :
    Keeps I (excessProperty.find q target xs) := by
  induction xs with
  | nil => exact pureKeeps _
  | cons x xs ih =>
    unfold excessProperty.find
    infer_instance

instance excessPropertyKeeps (source target : TypeId) : Keeps I (q.excessProperty source target) := by
  unfold excessProperty
  infer_instance

instance refuseKeeps (explain : Bool) (source target : TypeId) (message : String → String → Message) :
    Keeps I (q.refuse explain source target message) := by
  unfold refuse
  infer_instance

instance signatureRelatedKeeps (r : Relation) (source target : SignatureId) :
    Keeps I (q.signatureRelated r source target) := by
  unfold signatureRelated
  have parameterKeeps (p : SymbolId × SymbolId) : Keeps I (do
      let left ← q.typeOfSymbol p.1
      let right ← q.typeOfSymbol p.2
      if (← q.relate r false right left).holds then return true
      return (← q.relate r false left right).holds) := inferInstance
  infer_instance

instance propertyRelatedKeeps (r : Relation) (explain : Bool) (source target : TypeId) (wanted : SymbolId) :
    Keeps I (q.propertyRelated r explain source target wanted) := by
  unfold propertyRelated
  refine .bind inferInstance fun w => .bind inferInstance fun found => ?_
  split <;> infer_instance

instance membersRelatedKeeps (r : Relation) (explain : Bool) (source target : TypeId) :
    Keeps I (q.membersRelated r explain source target) := by
  unfold membersRelated
  repeat' first | infer_instance | refine .bind inferInstance fun _ => ?_ | split

instance objectRelatedKeeps (r : Relation) (explain : Bool) (source target : TypeId) :
    Keeps I (q.objectRelated r explain source target) := by
  unfold objectRelated
  refine .bind inferInstance fun a => .bind inferInstance fun b => ?_
  split <;> infer_instance

instance structurallyRelatedKeeps (r : Relation) (explain : Bool) (source target : TypeId) :
    Keeps I (q.structurallyRelated r explain source target) := by
  unfold structurallyRelated
  refine .bind inferInstance fun a => .bind inferInstance fun b => ?_
  split <;> infer_instance

instance keptRelatedKeeps (r : Relation) (explain : Bool) (source target : TypeId) :
    Keeps I (q.keptRelated r explain source target) := by
  unfold keptRelated
  refine .bind inferInstance fun s => ?_
  dsimp only
  split <;> infer_instance

instance computeRelatedKeeps (r : Relation) (explain : Bool) (source target : TypeId) :
    Keeps I (q.computeRelated r explain source target) := by
  unfold computeRelated
  repeat' first | infer_instance | refine .bind inferInstance fun _ => ?_ | split

/-! Types as text -/

instance symbolNameKeeps (t : TypeId) : Keeps I (symbolName t) := by
  unfold symbolName
  refine .bind inferInstance fun info => ?_
  split <;> infer_instance

instance writeParametersKeeps (g : SignatureId) (depth : Nat) :
    Keeps I (q.writeParameters g depth) := by
  unfold writeParameters
  infer_instance

instance writeSignatureKeeps (between : String) (g : SignatureId) (depth : Nat) :
    Keeps I (q.writeSignature between g depth) := by
  unfold writeSignature
  infer_instance

instance writePropertyKeeps (x : SymbolId) (depth : Nat) : Keeps I (q.writeProperty x depth) := by
  unfold writeProperty
  infer_instance

instance isFunctionTypeKeeps (t : TypeId) : Keeps I (q.isFunctionType t) := by
  unfold isFunctionType
  refine .bind inferInstance fun f => ?_
  split <;> infer_instance

instance writePartKeeps (t : TypeId) (depth : Nat) : Keeps I (q.writePart t depth) := by
  unfold writePart
  repeat' first | infer_instance | refine .bind inferInstance fun _ => ?_ | split

instance writeObjectKeeps (t : TypeId) (a : Anonymous) (depth : Nat) :
    Keeps I (q.writeObject t a depth) := by
  unfold writeObject
  repeat' first | infer_instance | refine .bind inferInstance fun _ => ?_ | split

instance computeTextKeeps (t : TypeId) (depth : Nat) : Keeps I (q.computeText t depth) := by
  unfold computeText
  refine .bind inferInstance fun info => ?_
  split <;> infer_instance

/-! The types that symbols name -/

instance newTypeParametersKeeps (params : List TypeParam) : Keeps I (newTypeParameters params) := by
  refine .mapM fun p _ => .bind (.newSymbol ⟨?_, nofun⟩) inferInstance
  simp [Declaration.Labelled]

instance boundTypeParametersKeeps (scope : TypeScope) (params : List TypeParam) (types : List TypeId) :
    Keeps I (q.boundTypeParameters scope params types) := by
  induction params generalizing types with
  | nil => exact pureKeeps _
  | cons p ps ih =>
    cases types with
    | nil => exact pureKeeps _
    | cons t ts =>
      unfold boundTypeParameters
      dsimp only
      split <;> infer_instance

instance declareInterfaceKeeps (x : SymbolId) : Keeps I (q.declareInterface x) := by
  unfold declareInterface
  infer_instance

instance aliasedTypeKeeps (name : String) (node : TypeNode) (scope : TypeScope) :
    Keeps I (q.aliasedType name node scope) := by
  unfold aliasedType
  repeat' first | infer_instance | refine .bind inferInstance fun _ => ?_ | split

instance declareAliasKeeps (x : SymbolId) : Keeps I (q.declareAlias x) := by
  unfold declareAlias
  refine .bind inferInstance fun s => ?_
  split
  · infer_instance
  · refine .bind inferInstance fun types => .bind inferInstance fun _ => ?_
    infer_instance

instance computeDeclaredKeeps (x : SymbolId) : Keeps I (q.computeDeclared x) := by
  unfold computeDeclared
  refine .bind inferInstance fun s => ?_
  split <;> infer_instance

/-! The types of symbols -/

include lasting in
theorem functionTypeKeeps {nodes : List FunctionNode} (labelled : ∀ f ∈ nodes, f.Labelled Q A) (x : SymbolId)
    (scope : TypeScope) : Keeps I (functionType x nodes scope) :=
  .bind inferInstance fun _ => .bind (.mapM fun f member => .signatureOf (labelled f member) scope) inferInstance

theorem functionsLabelled {ds : List Declaration} (labelled : ∀ d ∈ ds, d.Labelled Q A)
    {function? : Declaration → Option FunctionNode}
    (functions : ∀ d f, d.Labelled Q A → function? d = some f → f.Labelled Q A) :
    ∀ f ∈ ds.filterMap function?, f.Labelled Q A := by
  intro f member
  obtain ⟨d, there, is⟩ := List.mem_filterMap.mp member
  exact functions d f (labelled d there) is

theorem callableLabelled {ds : List Declaration} (labelled : ∀ d ∈ ds, d.Labelled Q A) :
    ∀ f ∈ callableDeclarations ds, f.Labelled Q A := by
  intro f member
  unfold callableDeclarations at member
  dsimp only at member
  split at member
  case' isFalse => replace member := (List.mem_filter.mp member).1
  all_goals
    refine functionsLabelled labelled (fun d f known is => ?_) f member
    split at is
    · cases is
      exact known
    · cases is

theorem methodsLabelled {ds : List Declaration} (labelled : ∀ d ∈ ds, d.Labelled Q A) :
    ∀ f ∈ ds.filterMap (fun | .method f => some f | _ => none), f.Labelled Q A := by
  refine functionsLabelled labelled fun d f known is => ?_
  split at is
  · cases is
    exact known
  · cases is

instance parameterTypeKeeps (s : Symbol) (p : Param) : Keeps I (q.parameterType s p) := by
  unfold parameterType
  split <;> infer_instance

include lasting in
theorem variableTypeKeeps {d : Source.VarDeclarator} (labelled : ∀ e ∈ d.init, e.Labelled Q A) (isConst : Bool) :
    Keeps I (q.variableType isConst d) := by
  unfold variableType
  split
  · infer_instance
  · infer_instance
  next e _ init =>
    have := Level.typeOfExpr (I := I) (q := q) e (labelled e init)
    infer_instance

instance freshSymbolTypeKeeps (x : SymbolId) : Keeps I (q.freshSymbolType x) := by
  refine .symbol fun s labelled => ?_
  have functions := functionTypeKeeps (I := I) (callableLabelled labelled.declarations) x []
  have methods (scope : TypeScope) := functionTypeKeeps (I := I) (methodsLabelled labelled.declarations) x scope
  split
  · infer_instance
  · repeat' split
    all_goals try infer_instance
    next d declared =>
      refine variableTypeKeeps (fun e init => ?_) s.isConst
      have known : (Declaration.variable d).Labelled Q A := by
        rcases Option.or_eq_some_iff.mp declared with value | ⟨-, first⟩
        · exact labelled.value _ value
        · exact labelled.declarations _ (List.mem_of_mem_head? first)
      exact known e init

instance computeSymbolTypeKeeps (x : SymbolId) : Keeps I (q.computeSymbolType x) := by
  unfold computeSymbolType
  repeat' first | infer_instance | refine .bind inferInstance fun _ => ?_ | split

/-! What functions return -/

instance typeAtKeeps (g : SignatureId) (index : Nat) : Keeps I (q.typeAt g index) := by
  unfold typeAt
  repeat' first | infer_instance | refine .bind inferInstance fun _ => ?_ | split

instance expectedSignatureKeeps (expected : Option TypeId) : Keeps I (q.expectedSignature expected) := by
  unfold expectedSignature
  repeat' first | infer_instance | refine .bind inferInstance fun _ => ?_ | split

instance expectedResultKeeps (f : FunctionNode) : Keeps I (q.expectedResult f) := by
  unfold expectedResult
  repeat' first | infer_instance | refine .bind inferInstance fun _ => ?_ | split

instance isCoveredKeeps (t : TypeId) (kept : List TypeId) : Keeps I (q.isCovered t kept) := by
  unfold isCovered
  infer_instance

instance reduceSubtypesKeeps (kept types : List TypeId) : Keeps I (q.reduceSubtypes kept types) := by
  induction types generalizing kept with
  | nil => exact pureKeeps _
  | cons t ts ih =>
    unfold reduceSubtypes
    infer_instance

end Queries

mutual

theorem returnsLabelled : (s : Source.Stmt) → s.Labelled Q A → ∀ e, some e ∈ returnsOf s → e.Labelled Q A
  | .ret _ (some value), labelled, e, member => by
    unfold returnsOf at member
    simp only [List.mem_singleton, Option.some.injEq] at member
    exact member ▸ labelled
  | .block (.mk _ ss), labelled, e, member => returnsAllLabelled ss labelled e member
  | .cond _ _ yes (some no), labelled, e, member => by
    unfold returnsOf at member
    simp only [List.mem_append] at member
    exact member.elim (returnsLabelled yes labelled.2.1 e) (returnsLabelled no labelled.2.2 e)
  | .cond _ _ yes none, labelled, e, member => by
    unfold returnsOf at member
    simp only [List.append_nil] at member
    exact returnsLabelled yes labelled.2.1 e member
  | .loop _ _ body, labelled, e, member => returnsLabelled body labelled.2 e member
  | .ret _ none, _, _, member | .expr .., _, _, member | .var .., _, _, member | .function .., _, _, member
  | .typeAlias .., _, _, member | .interface .., _, _, member | .enum .., _, _, member | .brk .., _, _, member
  | .cont .., _, _, member | .empty .., _, _, member | .classDecl .., _, _, member
  | .importDecl .., _, _, member => by simp [returnsOf] at member

theorem returnsAllLabelled : (ss : List Source.Stmt) → Source.LabelledStmts Q A ss → ∀ e, some e ∈ returnsOfAll ss →
    e.Labelled Q A
  | [], _, _, member => by simp [returnsOfAll] at member
  | s :: ss, labelled, e, member => by
    rcases List.mem_append.mp member with first | rest
    · exact returnsLabelled s labelled.1 e first
    · exact returnsAllLabelled ss labelled.2 e rest

end

namespace Queries

variable [Level Q A I q]

include lasting in
theorem bodyResultKeeps {f : FunctionNode} (labelled : f.Labelled Q A) (expected : Option TypeId) :
    Keeps I (q.bodyResult expected f.body) := by
  unfold FunctionNode.Labelled at labelled
  split at labelled
  next none =>
    rw [none]
    exact pureKeeps _
  next b block =>
    rw [block]
    obtain ⟨mark, ss⟩ := b
    refine .bind (.mapM fun e member => ?_) inferInstance
    obtain ⟨value, returned, rfl⟩ := List.mem_filterMap.mp member
    exact Level.typeOfExpr e (returnsAllLabelled ss labelled e returned) expected
  next e expr =>
    rw [expr]
    have := Level.typeOfExpr (I := I) (q := q) e labelled
    exact bindKeeps _ _

include lasting in
theorem inferResultKeeps {f : FunctionNode} (labelled : f.Labelled Q A) :
    Keeps I (q.inferResult f) := by
  have := bodyResultKeeps (I := I) (q := q) labelled
  unfold inferResult
  infer_instance

include lasting in
theorem ownResultKeeps {sig : Signature} (labelled : sig.node.Labelled Q A) :
    Keeps I (q.ownResult sig) := by
  have := inferResultKeeps (I := I) (q := q) labelled
  unfold ownResult
  split <;> infer_instance

instance computeResultKeeps (g : SignatureId) : Keeps I (q.computeResult g) := by
  refine .signature fun sig labelled => ?_
  have := ownResultKeeps (I := I) (q := q) labelled
  split <;> infer_instance

end Queries

end Fragment.Typing
