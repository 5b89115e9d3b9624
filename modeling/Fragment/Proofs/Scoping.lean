import Fragment.Proofs.Laying

/-! Code of functions inside functions.
A function assigns symbols of its own, of the outermost level and of functions around it. If each of the
last is bound by the code of such a function, and parameters stand in order, then the statements that making
code adds are sound. Not everything that a function declares is bound by its code: ambient variables are not. -/
namespace Fragment.Emit

open Source (Mark Expr Property Param Body Block Stmt VarDeclarator)
open Typing (SymbolId State)
open Target (Lawful Quiet)
open Lowering

/-! Functions and what they bind -/

/-- The nodes of the functions that are declared directly among some statements. -/
def functionsOf : List Stmt → List Mark
  | [] => []
  | .function m _ _ _ (some _) _ _ :: rest => m :: functionsOf rest
  | _ :: rest => functionsOf rest

mutual

/-- The nodes of what the code of a statement binds, `var` apart: lexical variables and enumerations with a value
at run time, and functions with a body. -/
def laidBy (place : Place) : Stmt → List Mark
  | .var _ kind declarations ambient => if kind = .var || ambient then [] else declarations.map (·.mark)
  | .function m _ _ _ (some _) _ _ => if place = .branch then [m] else []
  | .enum m _ _ isConst ambient => if isConst || ambient then [] else [m]
  | .block (.mk _ ss) => functionsOf ss ++ laidByAll .block ss
  | .cond _ _ yes no => laidBy .branch yes ++ (match no with
    | some s => laidBy .branch s
    | none => [])
  | .loop _ _ body => laidBy .branch body
  | _ => []

def laidByAll (place : Place) : List Stmt → List Mark
  | [] => []
  | s :: ss => laidBy place s ++ laidByAll place ss

end

/-- The nodes of what the code of a function with some statements binds, parameters apart. -/
def boundMarks (ss : List Stmt) : List Mark := hoistedInAll ss ++ (functionsOf ss ++ laidByAll .block ss)

/-- The rules for a function inside functions that bind the outer symbols: parameters stand in an order that is
allowed, and symbols that are assigned and not declared belong to the outermost level or are outer symbols. In an async
function the checker knows promises. -/
structure Rules (s : State) (c : Context) (outer : List SymbolId) (params : List Param) (isAsync : Bool)
    (assigned declared : List Mark) : Prop where
  ordered : Target.paramFault false false (params.map fun p => ⟨p.name, p.mode⟩) = none
  assigned : ∀ x ∈ foreignSymbols s assigned (symbolsOf s (params.map (·.mark) ++ declared)), c.isOutermost x ∨ x ∈ outer
  awaits : isAsync = true → s.PromiseKnown

mutual

/-- All functions in an expression keep the rules, and checking has found the types that code depends on. -/
def ScopedExpr (s : State) (c : Context) (outer : List SymbolId) : Expr → Prop
  | .object _ properties => ScopedProperties s c outer properties
  | .array _ elements => ScopedExprs s c outer elements
  | .member _ target _ => Typed s target ∧ ScopedExpr s c outer target
  | .element _ target index => Typed s target ∧ ScopedExpr s c outer target ∧ ScopedExpr s c outer index
  | .call _ callee args => ScopedExpr s c outer callee ∧ ScopedExprs s c outer args
  | .unary _ _ operand => Typed s operand ∧ ScopedExpr s c outer operand
  | .await _ operand => ScopedExpr s c outer operand
  | .binary _ _ left right =>
    (Typed s left ∧ Typed s right) ∧ ScopedExpr s c outer left ∧ ScopedExpr s c outer right
  | .conditional _ test yes no =>
    Typed s test ∧ ScopedExpr s c outer test ∧ ScopedExpr s c outer yes ∧ ScopedExpr s c outer no
  | .assign _ _ target value =>
    (Typed s target ∧ Typed s value) ∧ ScopedExpr s c outer target ∧ ScopedExpr s c outer value
  | .cast _ e _ => ScopedExpr s c outer e
  | .arrow _ params body _ isAsync => ScopedBody s c outer params isAsync body
  | _ => True

def ScopedExprs (s : State) (c : Context) (outer : List SymbolId) : List Expr → Prop
  | [] => True
  | e :: es => ScopedExpr s c outer e ∧ ScopedExprs s c outer es

def ScopedProperties (s : State) (c : Context) (outer : List SymbolId) : List Property → Prop
  | [] => True
  | .mk _ _ value _ :: ps => ScopedExpr s c outer value ∧ ScopedProperties s c outer ps

def ScopedBody (s : State) (c : Context) (outer : List SymbolId) (params : List Param) (isAsync : Bool) : Body → Prop
  | .block b => ScopedBlock s c outer params isAsync b
  | .expr e => Rules s c outer params isAsync (assignedIn e) [] ∧ Typed s e ∧
    ScopedExpr s c (symbolsOf s (params.map (·.mark)) ++ outer) e

def ScopedBlock (s : State) (c : Context) (outer : List SymbolId) (params : List Param) (isAsync : Bool) : Block → Prop
  | .mk _ ss => Rules s c outer params isAsync (assignedInStmts ss) (declaredInAll ss) ∧
    ScopedStmts s c (symbolsOf s (params.map (·.mark)) ++ symbolsOf s (boundMarks ss) ++ outer) ss

def ScopedStmt (s : State) (c : Context) (outer : List SymbolId) : Stmt → Prop
  | .expr _ e => ScopedExpr s c outer e
  | .var _ _ declarations _ => ScopedDeclarators s c outer declarations
  | .ret _ value => match value with
    | some e => Typed s e ∧ ScopedExpr s c outer e
    | none => True
  | .block (.mk _ ss) => ScopedStmts s c outer ss
  | .cond _ test yes no => Typed s test ∧ ScopedExpr s c outer test ∧ ScopedStmt s c outer yes ∧ (match no with
    | some n => ScopedStmt s c outer n
    | none => True)
  | .loop _ test body => Typed s test ∧ ScopedExpr s c outer test ∧ ScopedStmt s c outer body
  | .function _ _ params _ body isAsync _ => match body with
    | some b => ScopedBlock s c outer params isAsync b
    | none => True
  | .enum m _ _ isConst ambient => isConst ∨ ambient ∨
    ∀ x, s.symbolOf[m.id]? = some x → (s.symbol x).declaredType.isSome = true
  | _ => True

def ScopedStmts (s : State) (c : Context) (outer : List SymbolId) : List Stmt → Prop
  | [] => True
  | st :: ss => ScopedStmt s c outer st ∧ ScopedStmts s c outer ss

def ScopedDeclarators (s : State) (c : Context) (outer : List SymbolId) : List VarDeclarator → Prop
  | [] => True
  | .mk _ _ _ init :: ds => (match init with
    | some e => ScopedExpr s c outer e
    | none => True) ∧ ScopedDeclarators s c outer ds

end

section Marks

theorem appendSubset {α : Type} {xs xs' ys ys' : List α} (first : xs ⊆ xs') (rest : ys ⊆ ys') : xs ++ ys ⊆ xs' ++ ys' :=
  List.append_subset.mpr ⟨List.subset_append_of_subset_left _ first, List.subset_append_of_subset_right _ rest⟩

theorem functionsDeclared : (ss : List Stmt) → functionsOf ss ⊆ declaredInAll ss
  | [] => by simp [functionsOf]
  | .function _ _ _ _ (some _) _ _ :: ss => by
    simp only [functionsOf, declaredInAll, declaredIn]
    exact appendSubset (List.Subset.refl [_]) (functionsDeclared ss)
  | .function _ _ _ _ none _ _ :: ss | .expr .. :: ss | .var .. :: ss | .ret .. :: ss | .brk .. :: ss | .cont .. :: ss
  | .empty .. :: ss | .block .. :: ss | .cond .. :: ss | .loop .. :: ss | .typeAlias .. :: ss | .interface .. :: ss
  | .enum .. :: ss | .classDecl .. :: ss | .importDecl .. :: ss => by
    unfold functionsOf
    simp only [declaredInAll]
    exact List.subset_append_of_subset_right _ (functionsDeclared ss)

mutual

theorem laidDeclared (place : Place) : (st : Stmt) → laidBy place st ⊆ declaredIn st
  | .var _ kind declarations ambient => by
    simp only [laidBy, declaredIn]
    split <;> simp
  | .function m _ _ _ (some _) _ _ => by
    simp only [laidBy, declaredIn]
    split <;> simp
  | .enum m _ _ isConst ambient => by
    simp only [laidBy, declaredIn]
    split <;> simp
  | .block (.mk _ ss) => by
    simp only [laidBy, declaredIn]
    exact List.append_subset.mpr ⟨functionsDeclared ss, laidAllDeclared .block ss⟩
  | .cond _ _ yes (some no) => by
    unfold laidBy declaredIn
    dsimp only
    exact appendSubset (laidDeclared .branch yes) (laidDeclared .branch no)
  | .cond _ _ yes none => by
    simp only [laidBy, declaredIn, List.append_nil]
    exact laidDeclared .branch yes
  | .loop _ _ body => by
    simp only [laidBy, declaredIn]
    exact laidDeclared .branch body
  | .function _ _ _ _ none _ _ | .expr .. | .ret .. | .brk _ | .cont _ | .empty _ | .typeAlias .. | .interface ..
  | .classDecl .. | .importDecl .. => by simp [laidBy]

theorem laidAllDeclared (place : Place) : (ss : List Stmt) → laidByAll place ss ⊆ declaredInAll ss
  | [] => by simp [laidByAll]
  | st :: ss => by
    unfold laidByAll
    simp only [declaredInAll]
    exact appendSubset (laidDeclared place st) (laidAllDeclared place ss)

end

mutual

theorem hoistedDeclared : (st : Stmt) → hoistedIn st ⊆ declaredIn st
  | .var _ kind declarations ambient => by
    unfold hoistedIn
    simp only [declaredIn]
    split <;> simp
  | .block (.mk _ ss) => by
    unfold hoistedIn
    simp only [declaredIn]
    exact hoistedAllDeclared ss
  | .cond _ _ yes (some no) => by
    unfold hoistedIn
    simp only [declaredIn]
    exact appendSubset (hoistedDeclared yes) (hoistedDeclared no)
  | .cond _ _ yes none => by
    unfold hoistedIn
    simp only [declaredIn, List.append_nil]
    exact hoistedDeclared yes
  | .loop _ _ body => by
    unfold hoistedIn
    simp only [declaredIn]
    exact hoistedDeclared body
  | .function .. | .enum .. | .expr .. | .ret .. | .brk _ | .cont _ | .empty _ | .typeAlias .. | .interface ..
  | .classDecl .. | .importDecl .. => by simp [hoistedIn]

theorem hoistedAllDeclared : (ss : List Stmt) → hoistedInAll ss ⊆ declaredInAll ss
  | [] => by simp [hoistedInAll]
  | st :: ss => by
    simp only [hoistedInAll, declaredInAll]
    exact appendSubset (hoistedDeclared st) (hoistedAllDeclared ss)

end

theorem boundDeclared (ss : List Stmt) : boundMarks ss ⊆ declaredInAll ss :=
  List.append_subset.mpr ⟨hoistedAllDeclared ss, List.append_subset.mpr ⟨functionsDeclared ss, laidAllDeclared .block ss⟩⟩

theorem symbolsAppend (s : State) (first rest : List Mark) :
    symbolsOf s (first ++ rest) = symbolsOf s first ++ symbolsOf s rest := List.filterMap_append

end Marks

/-! The code of functions -/

section Lower

variable {s : State} {c : Context} {outer : List SymbolId} {isAsync : Bool}

/-- The lines that say where names come from stand first, before any variable is bound. -/
theorem blockStartOpens {params : List Param} {ss : List Stmt} {inner : List SymbolId}
    (rules : Rules s c outer params isAsync (assignedInStmts ss) (declaredInAll ss)) (made : List Target.Param) :
    Opens s c outer (symbolsOf s (params.map (·.mark) ++ declaredInAll ss)) inner (symbolsOf s (hoistedInAll ss))
      (blockStart made (symbolsOf s (params.map (·.mark))) ss) := by
  refine (declaredSymbolsSteps _).bind fun declared xs held => ?_
  obtain ⟨_, _, rfl, rfl⟩ := held
  rw [← symbolsAppend]
  have lines : Opens s c outer (symbolsOf s (params.map (·.mark) ++ declaredInAll ss)) inner [] _ :=
    bindingLinesSteps rules.assigned
  have rest : Lays s c inner (symbolsOf s (hoistedInAll ss))
      (collectLine made >>= fun _ => hoistLines (hoistedInAll ss)) :=
    (collectLineLays made).before fun _ => hoistLinesLays _
  exact (lines.bind fun _ => rest).weaken fun _ _ _ _ opened _ => opened

theorem blockOpens {params : List Param} {ss : List Stmt} {inner : List SymbolId}
    (rules : Rules s c outer params isAsync (assignedInStmts ss) (declaredInAll ss))
    (declarations : Lays s c inner (symbolsOf s (functionsOf ss)) (lowerDeclarations ss))
    (statements : Lays s c inner (symbolsOf s (laidByAll .block ss)) (lowerStmts .block ss)) (made : List Target.Param) :
    Opens s c outer (symbolsOf s (params.map (·.mark) ++ declaredInAll ss)) inner (symbolsOf s (boundMarks ss))
      (blockStart made (symbolsOf s (params.map (·.mark))) ss >>= fun _ =>
        lowerDeclarations ss >>= fun _ => lowerStmts .block ss) := by
  have whole := (blockStartOpens rules made).bind fun _ => declarations.bind fun _ => statements
  rwa [← symbolsAppend, ← symbolsAppend] at whole

theorem blockDefines {params : List Param} {ss : List Stmt}
    (rules : Rules s c outer params isAsync (assignedInStmts ss) (declaredInAll ss))
    (declarations : Lays s c (symbolsOf s (params.map (·.mark)) ++ symbolsOf s (boundMarks ss) ++ outer)
      (symbolsOf s (functionsOf ss)) (lowerDeclarations ss))
    (statements : Lays s c (symbolsOf s (params.map (·.mark)) ++ symbolsOf s (boundMarks ss) ++ outer)
      (symbolsOf s (laidByAll .block ss)) (lowerStmts .block ss))
    {made : List Target.Param} (modes : made.map (·.mode) = params.map (·.mode)) (name : String) :
    Steps s c (fun _ xs n => Covers c n (symbolsOf s (params.map (·.mark))) (made.map (·.name)) →
        Sound c n outer [] xs ∧ Target.boundIn xs = [name])
      (functionBody isAsync (blockStart made (symbolsOf s (params.map (·.mark))) ss >>= fun _ =>
        lowerDeclarations ss >>= fun _ => lowerStmts .block ss) >>=
        fun inside => push (.define name isAsync made inside)) := by
  refine defineSteps (blockOpens rules declarations statements made) ?_ ?_ name rules.awaits
  · rw [← symbolsAppend]
    exact List.filterMap_subset _ (appendSubset (List.Subset.refl _) (boundDeclared ss))
  · refine (paramFaultModes ?_ _ _).trans rules.ordered
    simp [modes]

theorem storedLays (op : Source.AssignOp) {target value : Expr} (typed : Typed s target ∧ Typed s value)
    (assigned : Lays s c outer [] (lowerExpr value)) (o k : Target.Expr) :
    Lays s c outer [] (match op with
      | none => do return storeExpr o k (← lowerExpr value)
      | some _ => do
        let store ← newStore
        let assigned ← lowerExpr value
        let result ← combined op store.current target value assigned
        return storeExpr (.bind store.object o) (.bind store.key k) result) := by
  cases op with
  | none => exact assigned.before fun _ => .pure _
  | some op =>
    refine laysCompose.newStore.before fun store => assigned.before fun v => ?_
    exact (laysCompose.combined (some op) (typedReads typed.1) (typedReads typed.2)).before fun _ => .pure _

/-- A statement that is an expression. An assignment of a variable has no value there. -/
theorem exprStmtLays (place : Place) (m : Mark) {e : Expr} (whole : Lays s c outer [] (lowerExpr e))
    (part : ∀ m op mark name value, e = .assign m op (.ident mark name) value →
      (Typed s (.ident mark name) ∧ Typed s value) ∧ Lays s c outer [] (lowerExpr value)) :
    Lays s c outer [] (lowerStmt place (.expr m e)) := by
  -- Only the assigned value is lowered then, so the fact about the whole expression does not apply.
  obtain ⟨-, _, op, mark, name, value, rfl, lowered⟩ | lowered := exprStmtLowered place m e <;> rw [lowered]
  · obtain ⟨typed, assigned⟩ := part _ _ _ _ _ rfl
    refine (laysCompose.targetName mark name).before fun x => assigned.before fun v => ?_
    refine (laysCompose.combined op (typedReads typed.1) (typedReads typed.2)).before fun _ => ?_
    exact pushLays rfl (fun _ => rfl) fun _ _ => rfl
  · refine whole.before fun v => ?_
    split <;> exact pushLays rfl (fun _ => rfl) fun _ _ => rfl

theorem enumLineLays {mark : Mark}
    (known : ∀ x, s.symbolOf[mark.id]? = some x → (s.symbol x).declaredType.isSome = true) :
    Lays s c outer (symbolsOf s [mark]) (enumLine mark) := by
  simp only [enumLine]
  refine Lays.given (declaredSymbolSteps mark) fun found held => ?_
  obtain ⟨_, _, rfl⟩ := held
  cases declared : s.symbolOf[mark.id]? with
  | none => exact Steps.pure fun _ _ _ => by simpa [symbolsOf, declared] using Sound.nil
  | some x =>
    have entry (m : Typing.Symbol) : Lays s c outer [] (do return (m.name, ← numberExpr (m.enumValue.getD (.int 0))) :
        Lowering (String × Target.Expr)) := (laysCompose.number _).before fun _ => .pure _
    have entries (ms : List Typing.Symbol) : Lays s c outer []
        (ms.mapM fun m => do return (m.name, ← numberExpr (m.enumValue.getD (.int 0)))) := by
      induction ms with
      | nil => exact .pure _
      | cons m ms ih =>
        rw [List.mapM_cons]
        exact (entry m).before fun _ => ih.before fun _ => .pure _
    refine Steps.weaken (?_ : Lays s c outer [x] _) fun _ _ _ _ sound _ => by simpa [symbolsOf, declared] using sound
    refine (lookupLays (Typing.readsDeclared (known x declared))).before fun t => getLays.before fun p => ?_
    exact (entries _).before fun values => assignLays x (.dict values)

theorem exprDefines {params : List Param} {e : Expr} (rules : Rules s c outer params isAsync (assignedIn e) [])
    (typed : Typed s e)
    (value : Lays s c (symbolsOf s (params.map (·.mark)) ++ outer) [] (lowerExpr e))
    {made : List Target.Param} (modes : made.map (·.mode) = params.map (·.mode)) (name : String) :
    Steps s c (fun _ xs n => Covers c n (symbolsOf s (params.map (·.mark))) (made.map (·.name)) →
        Sound c n outer [] xs ∧ Target.boundIn xs = [name])
      (functionBody isAsync (bindingLines (assignedIn e) (symbolsOf s (params.map (·.mark))) >>= fun _ =>
        collectLine made >>= fun _ => lowerExpr e >>= fun v => returnExpr e v >>= fun v => push (.ret v)) >>=
        fun inside => push (.define name isAsync made inside)) := by
  have assigned := rules.assigned
  rw [List.append_nil] at assigned
  have lines : Opens s c outer (symbolsOf s (params.map (·.mark))) (symbolsOf s (params.map (·.mark)) ++ [] ++ outer) [] _ :=
    bindingLinesSteps assigned
  rw [← List.append_nil (symbolsOf s (params.map (·.mark)))] at value
  have rest : Lays s c (symbolsOf s (params.map (·.mark)) ++ [] ++ outer) []
      (collectLine made >>= fun _ => lowerExpr e >>= fun v => returnExpr e v >>= fun v => push (.ret v)) :=
    (collectLineLays made).before fun _ => value.before fun v => (returnLays typed).before fun _ =>
      pushLays rfl (fun _ => rfl) fun _ _ => rfl
  refine defineSteps (lines.bind fun _ => rest) (by simp) ((paramFaultModes ?_ _ _).trans rules.ordered) name rules.awaits
  simp [modes]

theorem functionStartSteps (mark : Mark) (name : String) (params : List Param) :
    Steps s c (fun r xs n => xs = [] ∧ (∃ x, s.symbolOf[mark.id]? = some x ∧ c.named? n x = some r.1) ∧
      r.2.1.map (·.mode) = params.map (·.mode) ∧ r.2.2 = symbolsOf s (params.map (·.mark)) ∧
      Covers c n r.2.2 (r.2.1.map (·.name))) (functionStart mark name params) := by
  refine (declaredSymbolSteps mark).bind fun found xs held => ?_
  obtain ⟨_, _, rfl, rfl⟩ := held
  split
  case h_1 => exact refuseSteps _
  case h_2 x declared =>
    refine (nameOfSteps x).bind fun name ys _ => (parametersSteps params).bind fun r zs _ => Steps.pure ?_
    rintro n _ ⟨rfl, facts⟩ ⟨rfl, named⟩ _
    exact ⟨rfl, ⟨x, declared, named⟩, facts⟩

/-- A declared function binds its name. -/
theorem declaredFunctionLays (mark : Mark) (name : String) {params : List Param} {ss : List Stmt}
    (rules : Rules s c outer params isAsync (assignedInStmts ss) (declaredInAll ss))
    (declarations : Lays s c (symbolsOf s (params.map (·.mark)) ++ symbolsOf s (boundMarks ss) ++ outer)
      (symbolsOf s (functionsOf ss)) (lowerDeclarations ss))
    (statements : Lays s c (symbolsOf s (params.map (·.mark)) ++ symbolsOf s (boundMarks ss) ++ outer)
      (symbolsOf s (laidByAll .block ss)) (lowerStmts .block ss)) :
    Lays s c outer (symbolsOf s [mark]) (functionStart mark name params >>= fun r =>
      functionBody isAsync (blockStart r.2.1 r.2.2 ss >>= fun _ =>
        lowerDeclarations ss >>= fun _ => lowerStmts .block ss) >>=
        fun inside => push (.define r.1 isAsync r.2.1 inside)) := by
  refine Lays.given (functionStartSteps mark name params) fun r held => ?_
  obtain ⟨name, made, own⟩ := r
  obtain ⟨_, _, ⟨x, declared, -⟩, modes, rfl, -⟩ := held
  refine (blockDefines rules declarations statements modes name).weaken ?_
  rintro _ xs n _ made ⟨⟨y, same, named⟩, -, -, covers⟩
  obtain ⟨sound, bound⟩ := made covers
  -- The definition is a statement around the function, where its own name is a variable.
  refine ⟨sound.quiet, sound.lawful, fun z member a has => ?_⟩
  cases declared.symm.trans same
  obtain rfl : z = x := by simpa [symbolsOf, declared] using member
  cases has.symm.trans named
  simp [bound]

mutual

theorem lowerExprLays (outer : List SymbolId) : (e : Expr) → ScopedExpr s c outer e → Lays s c outer [] (lowerExpr e)
  | .number _ value _, _ => by
    simp only [lowerExpr]
    exact laysCompose.number value
  | .string _ value, _ | .boolean _ value, _ => by
    simp only [lowerExpr]
    exact .pure _
  | .ident mark name, _ => by
    simp only [lowerExpr]
    exact laysCompose.nameExpr mark name
  | .object _ properties, ruled => by
    simp only [ScopedExpr, lowerExpr] at ruled ⊢
    exact (lowerPropertiesLays outer properties ruled).before fun _ => .pure _
  | .array _ elements, ruled => by
    simp only [ScopedExpr, lowerExpr] at ruled ⊢
    exact (lowerExprsLays outer elements ruled).before fun _ => .pure _
  | .member mark target name, ruled => by
    simp only [ScopedExpr, lowerExpr] at ruled ⊢
    refine getLays.before fun p => ?_
    split
    · exact laysCompose.number _
    · exact (lowerExprLays outer target ruled.2).before fun t => laysCompose.member mark (typedReads ruled.1) name
  | .element mark target index, ruled => by
    simp only [ScopedExpr, lowerExpr] at ruled ⊢
    refine getLays.before fun p => ?_
    split
    · exact laysCompose.number _
    · refine (lowerExprLays outer target ruled.2.1).before fun t => ?_
      exact (lowerExprLays outer index ruled.2.2).before fun i => laysCompose.element mark (typedReads ruled.1) index
  | .call _ callee args, ruled => by
    simp only [ScopedExpr, lowerExpr] at ruled ⊢
    refine (lowerExprsLays outer args ruled.2).before fun _ => ?_
    exact (lowerExprLays outer callee ruled.1).before fun _ => .pure _
  | .unary _ op operand, ruled => by
    simp only [ScopedExpr, lowerExpr] at ruled ⊢
    exact (lowerExprLays outer operand ruled.2).before fun _ => laysCompose.unary op (typedReads ruled.1)
  | .await _ operand, ruled => by
    simp only [ScopedExpr, lowerExpr] at ruled ⊢
    exact (lowerExprLays outer operand ruled).before fun _ => .pure _
  | .binary _ op left right, ruled => by
    simp only [ScopedExpr, lowerExpr] at ruled ⊢
    refine (lowerExprLays outer left ruled.2.1).before fun l => (typeOfLays ruled.1.1).before fun t => ?_
    refine (lowerExprLays outer right ruled.2.2).before fun r => ?_
    split
    · exact laysCompose.logical true t
    · exact laysCompose.logical false t
    · exact (typeOfLays ruled.1.2).before fun u => laysCompose.operator _ t u
  | .conditional _ test yes no, ruled => by
    simp only [ScopedExpr, lowerExpr] at ruled ⊢
    obtain ⟨typed, first, second, third⟩ := ruled
    refine (lowerExprLays outer test first).before fun t => (laysCompose.condition (typedReads typed) t).before fun t => ?_
    refine (lowerExprLays outer yes second).before fun y => ?_
    exact (lowerExprLays outer no third).before fun _ => .pure _
  | .assign _ op (.ident mark name) value, ruled => by
    simp only [ScopedExpr, lowerExpr] at ruled ⊢
    refine (laysCompose.targetName mark name).before fun x => (lowerExprLays outer value ruled.2.2).before fun v => ?_
    exact (laysCompose.combined op (typedReads ruled.1.1) (typedReads ruled.1.2)).before fun _ => .pure _
  | .assign _ op (.member mark object name) value, ruled => by
    simp only [ScopedExpr, lowerExpr] at ruled ⊢
    obtain ⟨typed, ⟨-, owner⟩, assigned⟩ := ruled
    refine (lowerExprLays outer object owner).before fun o => ?_
    exact storedLays op typed (lowerExprLays outer value assigned) o (.text name)
  | .assign _ op (.element mark object index) value, ruled => by
    simp only [ScopedExpr, lowerExpr] at ruled ⊢
    obtain ⟨typed, ⟨-, owner, key⟩, assigned⟩ := ruled
    refine (lowerExprLays outer object owner).before fun o => (lowerExprLays outer index key).before fun k => ?_
    exact storedLays op typed (lowerExprLays outer value assigned) o k
  | .assign _ _ (.number ..) _, _ | .assign _ _ (.string ..) _, _ | .assign _ _ (.boolean ..) _, _
  | .assign _ _ (.object ..) _, _ | .assign _ _ (.array ..) _, _ | .assign _ _ (.call ..) _, _
  | .assign _ _ (.unary ..) _, _ | .assign _ _ (.await ..) _, _ | .assign _ _ (.binary ..) _, _
  | .assign _ _ (.conditional ..) _, _ | .assign _ _ (.assign ..) _, _ | .assign _ _ (.cast ..) _, _
  | .assign _ _ (.arrow ..) _, _ => by
    simp only [lowerExpr]
    exact refuseSteps _
  | .cast _ e _, ruled => by
    simp only [ScopedExpr, lowerExpr] at ruled ⊢
    exact lowerExprLays outer e ruled
  | .arrow _ params body _ isAsync, ruled => by
    simp only [ScopedExpr, lowerExpr] at ruled ⊢
    refine (temporaryLays .function).before fun name => ?_
    refine Lays.given (parametersSteps params) fun r held => ?_
    obtain ⟨made, own⟩ := r
    obtain ⟨_, _, modes, rfl, -⟩ := held
    dsimp only
    rw [← bind_assoc]
    refine (lowerBodyDefines outer body ruled modes name).bind fun _ xs _ => Steps.pure ?_
    rintro n _ made ⟨-, -, covers⟩
    simpa using (made covers).1

theorem lowerExprsLays (outer : List SymbolId) : (es : List Expr) → ScopedExprs s c outer es →
    Lays s c outer [] (lowerExprs es)
  | [], _ => by
    simp only [lowerExprs]
    exact .pure _
  | e :: es, ruled => by
    simp only [ScopedExprs, lowerExprs] at ruled ⊢
    refine (lowerExprLays outer e ruled.1).before fun _ => ?_
    exact (lowerExprsLays outer es ruled.2).before fun _ => .pure _

theorem lowerPropertiesLays (outer : List SymbolId) : (ps : List Property) → ScopedProperties s c outer ps →
    Lays s c outer [] (lowerProperties ps)
  | [], _ => by
    simp only [lowerProperties]
    exact .pure _
  | .mk _ name value _ :: ps, ruled => by
    simp only [ScopedProperties, lowerProperties] at ruled ⊢
    refine (lowerExprLays outer value ruled.1).before fun _ => ?_
    exact (lowerPropertiesLays outer ps ruled.2).before fun _ => .pure _

theorem lowerBodyDefines (outer : List SymbolId) {params : List Param} {isAsync : Bool} :
    (body : Body) → ScopedBody s c outer params isAsync body → {made : List Target.Param} →
    made.map (·.mode) = params.map (·.mode) → (name : String) →
    Steps s c (fun _ xs n => Covers c n (symbolsOf s (params.map (·.mark))) (made.map (·.name)) →
        Sound c n outer [] xs ∧ Target.boundIn xs = [name])
      (functionBody isAsync (lowerBody made (symbolsOf s (params.map (·.mark))) body) >>= fun inside =>
        push (.define name isAsync made inside))
  | .block (.mk _ ss), ruled, made, modes, name => by
    simp only [ScopedBody, ScopedBlock, lowerBody] at ruled ⊢
    exact blockDefines ruled.1 (lowerDeclarationsLays _ ss ruled.2) (lowerStmtsLays _ .block ss ruled.2) modes name
  | .expr e, ruled, made, modes, name => by
    simp only [ScopedBody, lowerBody] at ruled ⊢
    exact exprDefines ruled.1 ruled.2.1 (lowerExprLays _ e ruled.2.2) modes name

theorem lowerDeclarationsLays (outer : List SymbolId) : (ss : List Stmt) → ScopedStmts s c outer ss →
    Lays s c outer (symbolsOf s (functionsOf ss)) (lowerDeclarations ss)
  | [], _ => by
    simp only [lowerDeclarations]
    exact .pure _
  | .function mark name params _ (some (.mk _ ss)) isAsync _ :: rest, ruled => by
    simp only [ScopedStmts, ScopedStmt, ScopedBlock, lowerDeclarations, functionsOf] at ruled ⊢
    obtain ⟨⟨rules, body⟩, others⟩ := ruled
    have first := declaredFunctionLays mark name rules (lowerDeclarationsLays _ ss body) (lowerStmtsLays _ .block ss body)
    have both := first.bind fun _ => lowerDeclarationsLays outer rest others
    simp only [bind_assoc, ← symbolsAppend] at both
    exact both
  | .function _ _ _ _ none _ _ :: rest, ruled | .expr .. :: rest, ruled | .var .. :: rest, ruled
  | .ret .. :: rest, ruled | .brk .. :: rest, ruled | .cont .. :: rest, ruled | .empty .. :: rest, ruled
  | .block .. :: rest, ruled | .cond .. :: rest, ruled | .loop .. :: rest, ruled | .typeAlias .. :: rest, ruled
  | .interface .. :: rest, ruled | .enum .. :: rest, ruled | .classDecl .. :: rest, ruled
  | .importDecl .. :: rest, ruled => by
    simp only [ScopedStmts, lowerDeclarations, functionsOf] at ruled ⊢
    exact lowerDeclarationsLays outer rest ruled.2

theorem lowerStmtsLays (outer : List SymbolId) (place : Place) : (ss : List Stmt) → ScopedStmts s c outer ss →
    Lays s c outer (symbolsOf s (laidByAll place ss)) (lowerStmts place ss)
  | [], _ => by
    simp only [lowerStmts]
    exact .pure _
  | st :: ss, ruled => by
    simp only [ScopedStmts, lowerStmts, laidByAll, symbolsAppend] at ruled ⊢
    exact (lowerStmtLays outer place st ruled.1).bind fun _ => lowerStmtsLays outer place ss ruled.2

theorem lowerDeclaratorsLays (outer : List SymbolId) (isVar : Bool) : (ds : List VarDeclarator) →
    ScopedDeclarators s c outer ds →
    Lays s c outer (if isVar then [] else symbolsOf s (ds.map (·.mark))) (lowerDeclarators isVar ds)
  | [], _ => by
    simp only [lowerDeclarators]
    exact (Lays.pure _).less (by split <;> simp [symbolsOf])
  | .mk mark name _ (some e) :: ds, ruled => by
    simp only [ScopedDeclarators, lowerDeclarators] at ruled ⊢
    refine Lays.given (variableNameSteps mark name) fun x held => ?_
    obtain ⟨_, _, declared⟩ := held
    have line (value : Target.Expr) := (assignLays x value).bind fun _ => lowerDeclaratorsLays outer isVar ds ruled.2
    simp only [bind_assoc] at line
    have both := (lowerExprLays outer e ruled.1).before line
    refine (both.less ?_).weaken fun _ _ _ _ sound _ => sound
    split <;> simp [symbolsOf, VarDeclarator.mark, declared]
  | .mk mark name _ none :: ds, ruled => by
    simp only [ScopedDeclarators, lowerDeclarators] at ruled ⊢
    refine Lays.given (variableNameSteps mark name) fun x held => ?_
    obtain ⟨_, _, declared⟩ := held
    have rest := lowerDeclaratorsLays outer isVar ds ruled.2
    cases isVar with
    | true => exact rest.weaken fun _ _ _ _ sound _ => sound
    | false =>
      have line := (assignLays x .none).bind fun _ => rest
      simp only [bind_assoc] at line
      refine (line.less ?_).weaken fun _ _ _ _ sound _ => sound
      simp [symbolsOf, VarDeclarator.mark, declared]

theorem lowerStmtLays (outer : List SymbolId) (place : Place) : (st : Stmt) → ScopedStmt s c outer st →
    Lays s c outer (symbolsOf s (laidBy place st)) (lowerStmt place st)
  | .expr m e, ruled => by
    simp only [ScopedStmt, laidBy] at ruled ⊢
    exact exprStmtLays place m (lowerExprLays outer e ruled) fun _ _ _ _ _ same => assignedLays outer e ruled same
  | .var _ kind declarations ambient, ruled => by
    simp only [ScopedStmt, laidBy, lowerStmt] at ruled ⊢
    cases ambient with
    | true => exact (Lays.pure _).less (by simp [symbolsOf])
    | false =>
      refine (lowerDeclaratorsLays outer _ declarations ruled).less ?_
      by_cases isVar : kind = .var <;> simp [isVar, symbolsOf]
  | .ret _ (some e), ruled => by
    simp only [ScopedStmt, laidBy, lowerStmt] at ruled ⊢
    refine (lowerExprLays outer e ruled.2).before fun v => (returnLays ruled.1).before fun _ => ?_
    exact pushLays rfl (fun _ => rfl) fun _ _ => rfl
  | .ret _ none, _ => by
    simp only [lowerStmt, laidBy]
    exact pushLays rfl (fun _ => rfl) fun _ _ => rfl
  | .block (.mk _ ss), ruled => by
    simp only [ScopedStmt, laidBy, lowerStmt, symbolsAppend] at ruled ⊢
    exact (lowerDeclarationsLays outer ss ruled).bind fun _ => lowerStmtsLays outer .block ss ruled
  | .cond _ test yes (some no), ruled => by
    simp only [ScopedStmt, laidBy, lowerStmt, symbolsAppend] at ruled ⊢
    obtain ⟨typed, first, second, third⟩ := ruled
    refine (lowerExprLays outer test first).before fun t => (laysCompose.condition (typedReads typed) t).before fun t => ?_
    refine Lays.given (suiteLays (lowerStmtLays outer .branch yes second)) fun y _ => ?_
    refine (suiteLays (lowerStmtLays outer .branch no third)).bind fun n xs _ => (pushSteps _).weaken ?_
    rintro _ _ names _ rfl ⟨rfl, otherwise⟩ branch
    exact branch.cond t otherwise
  | .cond _ test yes none, ruled => by
    simp only [ScopedStmt, laidBy, lowerStmt, List.append_nil] at ruled ⊢
    obtain ⟨typed, first, second, -⟩ := ruled
    refine (lowerExprLays outer test first).before fun t => (laysCompose.condition (typedReads typed) t).before fun t => ?_
    refine Lays.given (suiteLays (lowerStmtLays outer .branch yes second)) fun y _ => (pushSteps _).weaken ?_
    rintro _ _ names _ rfl branch
    exact branch.branch t
  | .loop _ test body, ruled => by
    simp only [ScopedStmt, laidBy, lowerStmt] at ruled ⊢
    obtain ⟨typed, first, second⟩ := ruled
    refine (lowerExprLays outer test first).before fun t => (laysCompose.condition (typedReads typed) t).before fun t => ?_
    refine Lays.given (suiteLays (lowerStmtLays outer .branch body second)) fun b _ => (pushSteps _).weaken ?_
    rintro _ _ names _ rfl branch
    exact branch.loop t
  | .brk _, _ | .cont _, _ => by
    simp only [lowerStmt, laidBy]
    exact pushLays rfl (fun _ => rfl) fun _ _ => rfl
  | .function mark name params _ (some (.mk _ ss)) isAsync _, ruled => by
    simp only [ScopedStmt, ScopedBlock, laidBy, lowerStmt] at ruled ⊢
    split
    · exact declaredFunctionLays mark name ruled.1 (lowerDeclarationsLays _ ss ruled.2) (lowerStmtsLays _ .block ss ruled.2)
    · exact .pure _
  | .enum mark _ _ isConst ambient, ruled => by
    simp only [ScopedStmt, laidBy, lowerStmt] at ruled ⊢
    split
    · exact .pure _
    case isFalse hasValue =>
      rw [Bool.or_eq_true, not_or] at hasValue
      exact enumLineLays ((ruled.resolve_left hasValue.1).resolve_left hasValue.2)
  | .empty .., _ | .function _ _ _ _ none _ _, _ | .typeAlias .., _ | .interface .., _ | .classDecl .., _
  | .importDecl .., _ => by
    simp only [lowerStmt, laidBy]
    exact .pure _

theorem assignedLays (outer : List SymbolId) : (e : Expr) → ScopedExpr s c outer e → {m mark : Mark} →
    {op : Source.AssignOp} → {name : String} → {value : Expr} → e = .assign m op (.ident mark name) value →
    (Typed s (.ident mark name) ∧ Typed s value) ∧ Lays s c outer [] (lowerExpr value)
  | .assign _ _ _ v, ruled, _, _, _, _, _, same => by
    cases same
    simp only [ScopedExpr] at ruled
    exact ⟨ruled.1, lowerExprLays outer v ruled.2.2⟩
  | .number .., _, _, _, _, _, _, same | .string .., _, _, _, _, _, _, same | .boolean .., _, _, _, _, _, _, same
  | .ident .., _, _, _, _, _, _, same | .object .., _, _, _, _, _, _, same | .array .., _, _, _, _, _, _, same
  | .member .., _, _, _, _, _, _, same | .element .., _, _, _, _, _, _, same | .call .., _, _, _, _, _, _, same
  | .unary .., _, _, _, _, _, _, same | .await .., _, _, _, _, _, _, same | .binary .., _, _, _, _, _, _, same
  | .conditional .., _, _, _, _, _, _, same | .cast .., _, _, _, _, _, _, same | .arrow .., _, _, _, _, _, _, same => by
    cases same

end

end Lower

end Fragment.Emit
