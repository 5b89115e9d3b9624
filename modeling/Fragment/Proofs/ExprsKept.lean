import Fragment.Proofs.TypesKept

/-! What the checker keeps when it looks at expressions and statements.
An access notes a property under its own number, a name notes what the scopes declare. So the checker as
a whole keeps that names and accesses are told apart. -/
namespace Fragment.Typing

open Fragment.Source (Mark Expr Property Param TypeNode TypeMember Stmt BinaryOp Tags)

variable {Q : String → Prop} {A : Tags} {I : State → Prop} {q : Queries}

open Check

theorem notePropertyKeeps [lasting : Lasting Q A I] {mark : Mark} (access : A.access mark.id) (x : SymbolId) :
    Keeps I (noteProperty mark x) := by
  refine .bind inferInstance fun s => .bind (.modified fun st holds => lasting.access st mark.id x holds access) fun _ => ?_
  repeat' first | infer_instance | split

instance checkDeclaredBeforeKeeps [Lasting Q A I] (mark : Mark) (name : String) (x : Symbol) :
    Keeps I (checkDeclaredBefore mark name x) := by
  unfold checkDeclaredBefore
  split <;> infer_instance

theorem deferKeeps [lasting : Lasting Q A I] {f : FunctionNode} (labelled : f.Labelled Q A) :
    Keeps I (modify fun s => { s with deferred := s.deferred ++ [f] }) := by
  exact .modified fun s holds => lasting.defer s f holds labelled

namespace Queries

instance checkAssignableKeeps [Lasting Q A I] [Level Q A I q] (source target : TypeId) (mark : Mark)
    (message : String → String → Message) : Keeps I (q.checkAssignable source target mark message) := by
  unfold checkAssignable
  repeat' first | infer_instance | refine .bind inferInstance fun _ => ?_ | split

/-! Written types -/

mutual

theorem checkAnnotationKeeps [Lasting Q A I] [Level Q A I q] (scope : TypeScope) : (node : TypeNode) →
    Keeps I (q.checkAnnotation scope node)
  | .ref _ _ args => by
    unfold checkAnnotation
    exact .bind inferInstance fun _ => checkAnnotationsKeeps scope args
  | .array _ element => by
    unfold checkAnnotation
    exact .bind inferInstance fun _ => checkAnnotationKeeps scope element
  | .union _ types => by
    unfold checkAnnotation
    exact .bind inferInstance fun _ => checkAnnotationsKeeps scope types
  | .intersection _ types => by
    unfold checkAnnotation
    exact .bind inferInstance fun _ => checkAnnotationsKeeps scope types
  | .literal .. => by
    unfold checkAnnotation
    infer_instance
  | .function _ params result => by
    unfold checkAnnotation
    exact .bind inferInstance fun _ => .bind (checkParamTypesKeeps scope params) fun _ => checkAnnotationKeeps scope result
  | .members _ members => by
    unfold checkAnnotation
    exact .bind inferInstance fun _ => checkMemberTypesKeeps scope members

theorem checkAnnotationsKeeps [Lasting Q A I] [Level Q A I q] (scope : TypeScope) : (nodes : List TypeNode) →
    Keeps I (q.checkAnnotations scope nodes)
  | [] => by
    unfold checkAnnotations
    infer_instance
  | t :: ts => by
    unfold checkAnnotations
    exact .bind (checkAnnotationKeeps scope t) fun _ => checkAnnotationsKeeps scope ts

theorem checkParamTypesKeeps [Lasting Q A I] [Level Q A I q] (scope : TypeScope) : (params : List Param) →
    Keeps I (q.checkParamTypes scope params)
  | [] => by
    unfold checkParamTypes
    infer_instance
  | .mk _ _ (some t) _ _ :: ps => by
    unfold checkParamTypes
    exact .bind (checkAnnotationKeeps scope t) fun _ => checkParamTypesKeeps scope ps
  | .mk _ _ none _ _ :: ps => by
    unfold checkParamTypes
    exact checkParamTypesKeeps scope ps

theorem checkMemberTypesKeeps [Lasting Q A I] [Level Q A I q] (scope : TypeScope) : (members : List TypeMember) →
    Keeps I (q.checkMemberTypes scope members)
  | [] => by
    unfold checkMemberTypes
    infer_instance
  | .property _ _ type _ :: ms => by
    unfold checkMemberTypes
    exact .bind (checkAnnotationKeeps scope type) fun _ => checkMemberTypesKeeps scope ms
  | .method _ _ params (some t) _ :: ms | .call _ params (some t) :: ms => by
    unfold checkMemberTypes
    exact .bind (checkParamTypesKeeps scope params) fun _ => .bind (checkAnnotationKeeps scope t) fun _ =>
      checkMemberTypesKeeps scope ms
  | .method _ _ params none _ :: ms | .call _ params none :: ms => by
    unfold checkMemberTypes
    exact .bind (checkParamTypesKeeps scope params) fun _ => checkMemberTypesKeeps scope ms

end

attribute [instance] checkAnnotationKeeps checkAnnotationsKeeps checkMemberTypesKeeps

section Expressions

variable [lasting : Lasting Q A I] [Level Q A I q]

include lasting

/-! Names and accesses -/

theorem nameTypeKeeps {mark : Mark} (named : A.name mark) (name : String) (accessed : Bool) :
    Keeps I (q.nameType mark name accessed) where
  keeps s t s' holds run := by
    have known (x : SymbolId) : (do
        modify fun s : State => { s with resolvedSymbols := s.resolvedSymbols.insert mark.id x }
        let s ← symbol x
        if s.flags.meets SymbolFlags.constEnum && !accessed then error mark .constEnumAsValue
        checkDeclaredBefore mark name s
        q.typeOfSymbol x) = (useName mark name accessed x >>= fun _ => q.typeOfSymbol x) := by
      unfold useName
      simp only [bind_assoc]
      congr
      funext _
      congr
      funext s
      split <;> simp
    -- The name is resolved in the state in which it is then noted.
    unfold nameType at run
    obtain ⟨_, _, got, run⟩ := runBind run
    cases got
    obtain ⟨_, _, asked, run⟩ := runBind run
    obtain ⟨resolved, rfl⟩ := Prod.mk.inj (Except.ok.inj asked)
    simp only [known] at run
    split at run
    · refine (?_ : Keeps I _).keeps s t s' holds run
      refine .bind inferInstance fun found => ?_
      split <;> infer_instance
    next x =>
      obtain ⟨_, after, used, typed⟩ := runBind run
      exact (Level.typeOfSymbol x).keeps after t s' (lasting.use s after mark name accessed x _ _ holds named rfl resolved used) typed

theorem accessedTypeKeeps {target : Expr} (labelled : target.Labelled Q A) : Keeps I (q.accessedType target) := by
  unfold accessedType
  split
  · have := nameTypeKeeps (I := I) (q := q) labelled
    refine .get fun s holds => ?_
    split
    · infer_instance
    next unknown =>
      have := fun t => lasting.note s _ t holds unknown
      infer_instance
  · exact Level.typeOfExpr target labelled none

instance definedTypeKeeps (t : TypeId) (target : Expr) : Keeps I (definedType t target) := by
  unfold definedType
  repeat' first | infer_instance | refine .bind inferInstance fun _ => ?_ | split

instance accessTargetKeeps (t : TypeId) (target : Expr) : Keeps I (accessTarget t target) := by
  unfold accessTarget
  infer_instance

theorem memberTypeKeeps {mark : Mark} {target : Expr} (access : A.access mark.id) (labelled : target.Labelled Q A)
    (name : String) : Keeps I (q.memberType mark target name) := by
  have := accessedTypeKeeps (I := I) (q := q) labelled
  have := notePropertyKeeps (I := I) access
  unfold memberType
  repeat' first | infer_instance | refine .bind inferInstance fun _ => ?_ | split

theorem indexedTypeKeeps {mark : Mark} (access : A.access mark.id) (t indexType : TypeId) :
    Keeps I (q.indexedType? mark t indexType) := by
  have := notePropertyKeeps (I := I) access
  unfold indexedType?
  repeat' first | infer_instance | refine .bind inferInstance fun _ => ?_ | split

theorem elementTypeKeeps {mark : Mark} {target index : Expr} (access : A.access mark.id) (labelled : target.Labelled Q A)
    (indexLabelled : index.Labelled Q A) : Keeps I (q.elementType mark target index) := by
  have := accessedTypeKeeps (I := I) (q := q) labelled
  have := Level.typeOfExpr (I := I) (q := q) index indexLabelled
  have := indexedTypeKeeps (I := I) (q := q) access
  unfold elementType
  repeat' first | infer_instance | refine .bind inferInstance fun _ => ?_ | split

/-! Literals -/

instance expectedPropertyKeeps (expected : Option TypeId) (name : String) :
    Keeps I (q.expectedProperty expected name) := by
  unfold expectedProperty
  split
  · infer_instance
  · have partKeeps (part : TypeId) : Keeps I (do
        if !(← hasFlag part TypeFlags.structured) then return none
        match (← q.property part name) with
        | some x => return some (← q.typeOfSymbol x)
        | none => return none : Check (Option TypeId)) := by
      repeat' first | infer_instance | refine .bind inferInstance fun _ => ?_ | split
    infer_instance

theorem literalTypesKeeps (expected : Option TypeId) (done : List (Property × TypeId)) {ps : List Property}
    (labelled : ∀ p ∈ ps, p.value.Labelled Q A) : Keeps I (q.literalTypes expected done ps) := by
  induction ps generalizing done with
  | nil => exact pureKeeps _
  | cons p rest ih =>
    have := Level.typeOfExpr (I := I) (q := q) p.value (labelled p (List.mem_cons_self ..))
    have := fun done => ih done fun p member => labelled p (List.mem_cons_of_mem _ member)
    unfold literalTypes
    infer_instance

instance literalPropertyKeeps (p : Property) (type : TypeId) : Keeps I (literalProperty p type) := by
  refine .bind (.newSymbol ⟨?_, ?_⟩) inferInstance
  · simp [Declaration.Labelled]
  · simp [Declaration.Labelled]

theorem objectTypeKeeps {ps : List Property} (labelled : ∀ p ∈ ps, p.value.Labelled Q A) (expected : Option TypeId) :
    Keeps I (q.objectType ps expected) := by
  have := literalTypesKeeps (I := I) (q := q) expected [] labelled
  unfold objectType
  infer_instance

theorem arrayTypeKeeps {es : List Expr} (labelled : ∀ e ∈ es, e.Labelled Q A) (expected : Option TypeId) :
    Keeps I (q.arrayType es expected) := by
  refine .bind inferInstance fun s => .bind (.mapM fun e member => ?_) inferInstance
  have := Level.typeOfExpr (I := I) (q := q) e (labelled e member)
  infer_instance

/-! Calls -/

instance argumentTypeKeeps (g : SignatureId) (index : Nat) : Keeps I (q.argumentType g index) := by
  unfold argumentType
  infer_instance

theorem checkArgumentsKeeps (g : SignatureId) (reporting : Bool) {args : List (Expr × Nat)}
    (labelled : ∀ a ∈ args, a.1.Labelled Q A) : Keeps I (q.checkArguments g reporting args) := by
  induction args generalizing reporting with
  | nil => exact pureKeeps _
  | cons a rest ih =>
    have := Level.typeOfExpr (I := I) (q := q) a.1 (labelled a (List.mem_cons_self ..))
    have := fun reporting => ih reporting fun a member => labelled a (List.mem_cons_of_mem _ member)
    unfold checkArguments
    repeat' first | infer_instance | refine .bind inferInstance fun _ => ?_ | split

instance reportCountKeeps (mark : Mark) (count : Nat) (signatures : List Signature) :
    Keeps I (reportCount mark count signatures) := by
  unfold reportCount
  infer_instance

instance fitsArgumentsKeeps (types : List (Option TypeId × Nat)) (g : SignatureId) :
    Keeps I (q.fitsArguments types g) := by
  have argumentKeeps (a : Option TypeId × Nat) : Keeps I (match a.1 with
      | none => return true
      | some t => do q.assignable t (← q.argumentType g a.2) : Check Bool) := by split <;> infer_instance
  exact allHoldKeeps _ types

instance firstFittingKeeps (types : List (Option TypeId × Nat)) (gs : List SignatureId) :
    Keeps I (q.firstFitting types gs) := by
  induction gs with
  | nil => exact pureKeeps _
  | cons g gs ih =>
    unfold firstFitting
    infer_instance

omit lasting in
theorem zipIdxLabelled {es : List Expr} (labelled : ∀ e ∈ es, e.Labelled Q A) :
    ∀ a ∈ es.zipIdx, a.1.Labelled Q A := fun a member => labelled a.1 (List.fst_mem_of_mem_zipIdx member)

theorem resolveCallKeeps {args : List Expr} (labelled : ∀ e ∈ args, e.Labelled Q A) (mark callee : Mark)
    (signatures : List SignatureId) : Keeps I (q.resolveCall mark callee args signatures) := by
  have arguments (g : SignatureId) (reporting : Bool) :=
    checkArgumentsKeeps (I := I) (q := q) g reporting (zipIdxLabelled labelled)
  unfold resolveCall
  refine .bind inferInstance fun infos => ?_
  dsimp only
  split
  · refine .bind inferInstance fun _ => ?_
    split <;> infer_instance
  next context others _ =>
    refine .bind (.mapM fun a member => ?_) fun types => .bind inferInstance fun fitting => ?_
    · have := Level.typeOfExpr (I := I) (q := q) a.1 (zipIdxLabelled labelled a member)
      infer_instance
    · split
      · infer_instance
      · refine .bind (.forIn fun a member _ => ?_) inferInstance
        have := Level.typeOfExpr (I := I) (q := q) a.1 (zipIdxLabelled labelled a member)
        infer_instance

instance calledTypeKeeps (callee : Mark) (t : TypeId) : Keeps I (calledType callee t) := by
  unfold calledType
  infer_instance

theorem chosenSignatureKeeps {args : List Expr} (labelled : ∀ e ∈ args, e.Labelled Q A) (mark callee : Mark)
    (t : TypeId) : Keeps I (q.chosenSignature mark callee args t) := by
  have := resolveCallKeeps (I := I) (q := q) labelled mark callee
  unfold chosenSignature
  refine .bind inferInstance fun t => .bind inferInstance fun signatures => ?_
  split
  · refine .bind inferInstance fun text => .bind inferInstance fun _ => .bind (.forIn fun e member _ => ?_) inferInstance
    have := Level.typeOfExpr (I := I) (q := q) e (labelled e member)
    infer_instance
  · infer_instance

theorem callTypeKeeps {callee : Expr} {args : List Expr} (labelled : callee.Labelled Q A)
    (argsLabelled : ∀ e ∈ args, e.Labelled Q A) (mark : Mark) :
    Keeps I (q.callType mark callee args) := by
  have := Level.typeOfExpr (I := I) (q := q) callee labelled
  have := chosenSignatureKeeps (I := I) (q := q) argsLabelled
  unfold callType
  refine .bind inferInstance fun t => .bind inferInstance fun isAny => ?_
  split
  · refine .bind (.forIn fun e member _ => ?_) inferInstance
    have := Level.typeOfExpr (I := I) (q := q) e (argsLabelled e member)
    infer_instance
  · refine .bind inferInstance fun t => .bind inferInstance fun chosen => ?_
    split <;> infer_instance

/-! Operators -/

theorem unaryTypeKeeps {operand : Expr} (labelled : operand.Labelled Q A) (op : Source.UnaryOp) :
    Keeps I (q.unaryType op operand) := by
  have := Level.typeOfExpr (I := I) (q := q) operand labelled
  unfold unaryType
  refine .bind inferInstance fun _ => ?_
  split <;> infer_instance

instance falsyOfKeeps (p : TypeId) : Keeps I (falsyOf? p) := by
  unfold falsyOf?
  refine .bind inferInstance fun info => ?_
  split <;> infer_instance

instance falsyPartKeeps (t : TypeId) : Keeps I (falsyPart t) := by
  unfold falsyPart
  refine .bind inferInstance fun s => ?_
  dsimp only
  split <;> infer_instance

instance truthyPartKeeps (t : TypeId) : Keeps I (truthyPart t) := by
  unfold truthyPart
  infer_instance

instance operandTextKeeps (t : TypeId) : Keeps I (q.operandText t) := by
  unfold operandText
  infer_instance

instance reportOperandsKeeps (mark : Mark) (op : BinaryOp) (left right : TypeId) :
    Keeps I (q.reportOperands mark op left right) := by
  unfold reportOperands
  infer_instance

instance hasStringOperandKeeps (left right : TypeId) : Keeps I (hasStringOperand left right) := by
  unfold hasStringOperand
  infer_instance

instance isNumericKeeps (t : TypeId) : Keeps I (isNumeric t) := allPartsKeeps t TypeFlags.numberLike

instance sumTypeKeeps (mark : Mark) (left right : TypeId) : Keeps I (q.sumType mark left right) := by
  unfold sumType
  infer_instance

instance isNumericOperandKeeps (mark : Mark) (t : TypeId) (message : Message) :
    Keeps I (isNumericOperand mark t message) := by
  unfold isNumericOperand
  infer_instance

instance arithmeticTypeKeeps (leftMark rightMark : Mark) (left right : TypeId) :
    Keeps I (arithmeticType leftMark rightMark left right) := by
  unfold arithmeticType
  infer_instance

instance relationalTypeKeeps (mark : Mark) (op : BinaryOp) (left right : TypeId) :
    Keeps I (q.relationalType mark op left right) := by
  unfold relationalType
  infer_instance

instance equalityTypeKeeps (mark : Mark) (left right : TypeId) :
    Keeps I (q.equalityType mark left right) := by
  unfold equalityType
  repeat' first | infer_instance | refine .bind inferInstance fun _ => ?_ | split

instance operatorTypeKeeps (op : BinaryOp) (left right : TypeId) (mark leftMark rightMark : Mark) :
    Keeps I (q.operatorType op left right mark leftMark rightMark) := by
  unfold operatorType
  infer_instance

theorem binaryTypeKeeps {left right : Expr} (leftLabelled : left.Labelled Q A) (rightLabelled : right.Labelled Q A)
    (mark : Mark) (op : BinaryOp) (expected : Option TypeId) :
    Keeps I (q.binaryType mark op left right expected) := by
  have := Level.typeOfExpr (I := I) (q := q) left leftLabelled
  have := Level.typeOfExpr (I := I) (q := q) right rightLabelled
  unfold binaryType
  split <;> infer_instance

theorem awaitTypeKeeps {operand : Expr} (labelled : operand.Labelled Q A) (mark : Mark) :
    Keeps I (q.awaitType mark operand) := by
  have := Level.typeOfExpr (I := I) (q := q) operand labelled
  unfold awaitType
  infer_instance

/-! Assignments and assertions -/

theorem assignedTypeKeeps {target : Expr} (labelled : target.Labelled Q A) :
    Keeps I (q.assignedType target) := by
  have := Level.typeOfExpr (I := I) (q := q) target labelled
  unfold assignedType
  repeat' first | infer_instance | refine .bind inferInstance fun _ => ?_ | split

theorem targetTypeKeeps {target : Expr} (labelled : target.Labelled Q A) :
    Keeps I (q.targetType target) := by
  have := Level.typeOfExpr (I := I) (q := q) target labelled
  have := assignedTypeKeeps (I := I) (q := q) labelled
  unfold targetType
  infer_instance

theorem assignmentTypeKeeps {target value : Expr} (labelled : target.Labelled Q A) (valueLabelled : value.Labelled Q A)
    (mark : Mark) (op : Source.AssignOp) : Keeps I (q.assignmentType mark op target value) := by
  have := targetTypeKeeps (I := I) (q := q) labelled
  have := Level.typeOfExpr (I := I) (q := q) value valueLabelled
  unfold assignmentType
  refine .bind inferInstance fun wanted => ?_
  split <;> infer_instance

theorem castTypeKeeps {e : Expr} (labelled : e.Labelled Q A) (mark : Mark) (node : TypeNode) :
    Keeps I (q.castType mark e node) := by
  have := Level.typeOfExpr (I := I) (q := q) e labelled
  unfold castType
  repeat' first | infer_instance | refine .bind inferInstance fun _ => ?_

/-! Functions -/

instance checkAsyncKeeps (f : FunctionNode) (g : SignatureId) : Keeps I (q.checkAsync f g) := by
  unfold checkAsync
  repeat' first | infer_instance | refine .bind inferInstance fun _ => ?_ | split

instance arrowParameterTypeKeeps (p : Param) (index : Nat) (expected : Option SignatureId) :
    Keeps I (q.arrowParameterType p index expected) := by
  unfold arrowParameterType
  repeat' first | infer_instance | refine .bind inferInstance fun _ => ?_ | split

theorem arrowTypeKeeps {f : FunctionNode} (labelled : f.Labelled Q A) (expected : Option TypeId) :
    Keeps I (q.arrowType f expected) := by
  have := Keeps.signatureOf (I := I) labelled
  have := deferKeeps (I := I) labelled
  unfold arrowType
  refine .bind inferInstance fun context => .bind inferInstance fun _ => .bind inferInstance fun g => ?_
  refine .bind inferInstance fun sig => .bind inferInstance fun _ => ?_
  dsimp only
  split <;> infer_instance

omit lasting in
theorem arrowLabelled {body : Source.Body} (labelled : body.Labelled Q A) (mark : Mark) (params : List Param)
    (result : Option TypeNode) (isAsync : Bool) :
    (FunctionNode.ofArrow mark params body result isAsync).Labelled Q A := by
  cases body <;> exact labelled

/-! Expressions -/

theorem freshExprTypeKeeps {e : Expr} (labelled : e.Labelled Q A) (expected : Option TypeId) :
    Keeps I (q.freshExprType e expected) := by
  cases e with
  | number | string | boolean =>
    unfold freshExprType
    infer_instance
  | ident _ name => exact nameTypeKeeps labelled name false
  | object _ properties => exact objectTypeKeeps ((Source.labelledPropertiesIff properties).mp labelled) expected
  | array _ elements => exact arrayTypeKeeps ((Source.labelledExprsIff elements).mp labelled) expected
  | member _ target name => exact memberTypeKeeps labelled.1 labelled.2 name
  | element _ target index => exact elementTypeKeeps labelled.1 labelled.2.1 labelled.2.2
  | call mark callee args => exact callTypeKeeps labelled.1 ((Source.labelledExprsIff args).mp labelled.2) mark
  | unary _ op operand =>
    have inner : operand.Labelled Q A := labelled
    exact unaryTypeKeeps inner op
  | await mark operand =>
    have inner : operand.Labelled Q A := labelled
    exact awaitTypeKeeps inner mark
  | binary mark op left right => exact binaryTypeKeeps labelled.1 labelled.2 mark op expected
  | conditional _ test yes no =>
    have := Level.typeOfExpr (I := I) (q := q) test labelled.1
    have := Level.typeOfExpr (I := I) (q := q) yes labelled.2.1
    have := Level.typeOfExpr (I := I) (q := q) no labelled.2.2
    unfold freshExprType
    infer_instance
  | assign mark op target value => exact assignmentTypeKeeps labelled.1 labelled.2 mark op
  | cast mark e type =>
    have inner : e.Labelled Q A := labelled
    exact castTypeKeeps inner mark type
  | arrow mark params body result isAsync =>
    exact arrowTypeKeeps (arrowLabelled labelled.2 mark params result isAsync) expected

theorem computeExprTypeKeeps {e : Expr} (labelled : e.Labelled Q A) (expected : Option TypeId) :
    Keeps I (q.computeExprType e expected) := by
  have := freshExprTypeKeeps (I := I) (q := q) labelled expected
  unfold computeExprType
  refine .get fun s holds => ?_
  split
  · infer_instance
  next unknown =>
    have := fun t => lasting.note s e.mark t holds unknown
    infer_instance

end Expressions

end Queries

/-! Levels -/

instance bottomLevel [Lasting Q A I] : Level Q A I .bottom where
  typeOfSymbol _ := throwKeeps _
  declaredType _ := throwKeeps _
  typeOfNode _ _ := throwKeeps _
  instantiate _ _ := throwKeeps _
  members _ := throwKeeps _
  property _ _ := throwKeeps _
  resultOf _ := throwKeeps _
  relate _ _ _ _ := throwKeeps _
  typeOfExpr _ _ _ := throwKeeps _
  write _ _ := throwKeeps _
  apparent _ := throwKeeps _
  awaited _ := throwKeeps _

instance stepLevel [Lasting Q A I] [Level Q A I q] : Level Q A I q.step where
  typeOfSymbol := Queries.computeSymbolTypeKeeps
  declaredType := Queries.computeDeclaredKeeps
  typeOfNode := Queries.annotationKeeps
  instantiate := Queries.computeInstanceKeeps
  members := Queries.computeMembersKeeps
  property := Queries.computePropertyKeeps
  resultOf := Queries.computeResultKeeps
  relate := Queries.computeRelatedKeeps
  typeOfExpr _ labelled := Queries.computeExprTypeKeeps labelled
  write := Queries.computeTextKeeps
  apparent := Queries.computeApparentKeeps
  awaited := Queries.computeAwaitedKeeps

instance depthLevel [Lasting Q A I] (depth : Nat) : Level Q A I (.ofDepth depth) := by
  induction depth with
  | zero => exact bottomLevel
  | succ depth _ => exact stepLevel

instance answersLevel [Lasting Q A I] : Level Q A I answers := depthLevel depthLimit

namespace Queries

section Statements

variable [lasting : Lasting Q A I] [Level Q A I q]

include lasting

/-! Statements -/

instance checkAnnotationOptionKeeps (scope : TypeScope) (node : Option TypeNode) :
    Keeps I (q.checkAnnotation? scope node) := by
  unfold checkAnnotation?
  split <;> infer_instance

theorem checkVariableKeeps {d : Source.VarDeclarator} (labelled : d.Labelled Q A) (kind : Source.VarKind) (ambient : Bool) :
    Keeps I (q.checkVariable kind ambient d) := by
  unfold checkVariable
  refine .bind inferInstance fun _ => .bind inferInstance fun s => ?_
  split
  · infer_instance
  · refine .bind inferInstance fun declared => ?_
    extract_lets rest
    have (r : Unit) : Keeps I (rest r) := by
      dsimp only [rest]
      split
      next e _ init =>
        have := Level.typeOfExpr (I := I) (q := q) e (labelled.2 e init)
        infer_instance
      next e _ init =>
        have := Level.typeOfExpr (I := I) (q := q) e (labelled.2 e init)
        infer_instance
      · infer_instance
    clear_value rest
    infer_instance

instance checkGivenKeeps (f : FunctionNode) (mark : Mark) (expected : Option TypeId) (given : TypeId) :
    Keeps I (q.checkGiven f mark expected given) := by
  unfold checkGiven
  split <;> infer_instance

theorem checkReturnKeeps {value : Option Expr} (labelled : ∀ e ∈ value, e.Labelled Q A) (mark : Mark) :
    Keeps I (q.checkReturn mark value) := by
  cases value with
  | none =>
    unfold checkReturn
    refine .bind inferInstance fun s => ?_
    split <;> infer_instance
  | some e =>
    have := Level.typeOfExpr (I := I) (q := q) e (labelled e rfl)
    unfold checkReturn
    refine .bind inferInstance fun s => ?_
    split <;> infer_instance

theorem checkFunctionKeeps {f : FunctionNode} (labelled : f.Labelled Q A) :
    Keeps I (q.checkFunction f) := by
  have := Keeps.signatureOf (I := I) labelled
  have := deferKeeps (I := I) labelled
  unfold checkFunction
  refine .bind inferInstance fun g => .bind (.forIn fun p _ _ => ?_) fun _ => .bind inferInstance fun _ => ?_
  · split <;> infer_instance
  · refine .bind inferInstance fun s => ?_
    dsimp only
    repeat' first | infer_instance | refine .bind inferInstance fun _ => ?_ | split

instance checkInterfaceKeeps (mark : Mark) (parents : List TypeNode) (members : List TypeMember) :
    Keeps I (q.checkInterface mark parents members) := by
  unfold checkInterface
  refine .bind inferInstance fun s => ?_
  split <;> infer_instance

omit lasting in
theorem declarationLabelled {body : Option Source.Block} (labelled : ∀ b ∈ body, b.Labelled Q A) (mark : Mark)
    (params : List Param) (result : Option TypeNode) (isAsync ambient : Bool) :
    (FunctionNode.ofDeclaration mark params result body isAsync ambient).Labelled Q A := by
  cases body with
  | none => exact trivial
  | some b => exact labelled b rfl

end Statements

mutual

theorem checkStatementKeeps [Lasting Q A I] [Level Q A I q] : (s : Stmt) → s.Labelled Q A →
    Keeps I (q.checkStatement s)
  | .expr _ e, labelled => by
    have inner : e.Labelled Q A := labelled
    have := Level.typeOfExpr (I := I) (q := q) e inner
    unfold checkStatement
    infer_instance
  | .var _ kind declarations ambient, labelled => by
    unfold checkStatement
    exact .forM fun d member =>
      checkVariableKeeps ((Source.labelledDeclaratorsIff declarations).mp labelled d member) kind ambient
  | .ret mark value, labelled => by
    unfold checkStatement
    refine checkReturnKeeps (fun e is => ?_) mark
    cases is
    exact labelled
  | .block (.mk _ ss), labelled => by
    unfold checkStatement
    exact checkStatementsKeeps ss labelled
  | .cond _ test yes (some no), labelled => by
    have := Level.typeOfExpr (I := I) (q := q) test labelled.1
    unfold checkStatement
    exact .bind inferInstance fun _ => .bind (checkStatementKeeps yes labelled.2.1) fun _ =>
      checkStatementKeeps no labelled.2.2
  | .cond _ test yes none, labelled => by
    have := Level.typeOfExpr (I := I) (q := q) test labelled.1
    unfold checkStatement
    exact .bind inferInstance fun _ => .bind (checkStatementKeeps yes labelled.2.1) fun _ => inferInstance
  | .loop _ test body, labelled => by
    have := Level.typeOfExpr (I := I) (q := q) test labelled.1
    unfold checkStatement
    exact .bind inferInstance fun _ => checkStatementKeeps body labelled.2
  | .function mark _ params result body isAsync ambient, labelled => by
    unfold checkStatement
    refine checkFunctionKeeps (declarationLabelled (fun b is => ?_) mark params result isAsync ambient)
    cases is
    exact labelled.2.2
  | .typeAlias .., _ | .enum .., _ => by
    unfold checkStatement
    refine .bind inferInstance fun s => ?_
    split <;> infer_instance
  | .interface .., _ | .classDecl .., _ | .importDecl .., _ | .brk _, _ | .cont _, _ | .empty _, _ => by
    unfold checkStatement
    infer_instance

theorem checkStatementsKeeps [Lasting Q A I] [Level Q A I q] : (ss : List Stmt) → Source.LabelledStmts Q A ss →
    Keeps I (q.checkStatements ss)
  | [], _ => by
    unfold checkStatements
    infer_instance
  | s :: ss, labelled => by
    unfold checkStatements
    exact .bind (checkStatementKeeps s labelled.1) fun _ => checkStatementsKeeps ss labelled.2

end

section Bodies

variable [lasting : Lasting Q A I] [Level Q A I q]

include lasting

instance checkPathsKeeps (f : FunctionNode) (statements : List Stmt) :
    Keeps I (q.checkPaths f statements) := by
  unfold checkPaths
  repeat' first | infer_instance | refine .bind inferInstance fun _ => ?_ | split

theorem checkContentKeeps {f : FunctionNode} (labelled : f.Labelled Q A) :
    Keeps I (q.checkContent f) := by
  unfold FunctionNode.Labelled at labelled
  unfold checkContent
  split at labelled
  next none =>
    rw [none]
    exact pureKeeps _
  next b block =>
    rw [block]
    obtain ⟨mark, ss⟩ := b
    exact .bind (checkStatementsKeeps ss labelled) inferInstance
  next e expr =>
    rw [expr]
    have := Level.typeOfExpr (I := I) (q := q) e labelled
    exact .bind inferInstance fun expected => .bind inferInstance inferInstance

theorem checkBodyKeeps {f : FunctionNode} (labelled : f.Labelled Q A) :
    Keeps I (q.checkBody f) := by
  have := checkContentKeeps (I := I) (q := q) labelled
  unfold checkBody
  repeat' first | infer_instance | refine .bind inferInstance fun _ => ?_ | split

theorem checkDeferredKeeps (fuel : Nat) : Keeps I (q.checkDeferred fuel) := by
  induction fuel with
  | zero => exact throwKeeps _
  | succ fuel ih =>
    constructor
    intro s u s' holds run
    unfold checkDeferred at run
    rw [runGet] at run
    split at run
    · cases run
      exact holds
    next f rest waiting =>
      have labelled := lasting.deferred s holds f (waiting ▸ List.mem_cons_self ..)
      obtain ⟨_, t, taken, run⟩ := runBind run
      cases taken
      exact ((checkBodyKeeps labelled).bind fun _ => ih).keeps _ u s' (lasting.next s f rest holds waiting) run

end Bodies

end Queries

/-! Files -/

theorem checkFileKeeps [Lasting Q A I] {f : Source.SourceFile} (labelled : Source.LabelledStmts Q A f.statements) :
    Keeps I (checkFile f) := by
  have := Queries.checkStatementsKeeps (I := I) (q := answers) f.statements labelled
  have := Queries.checkDeferredKeeps (I := I) (q := answers) bodyLimit
  unfold checkFile
  infer_instance

end Fragment.Typing
