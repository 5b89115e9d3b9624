import Fragment.Proofs.Making

/-! The statements that a step adds.
Making code never takes a statement back. So each step adds statements, and all of them are of some kind if those
are that it makes itself. -/
namespace Fragment.Emit

open Source (Mark Expr Property Param Body Block Stmt VarDeclarator)
open Typing (SymbolId)
open Lowering

/-- A step that adds statements of some kind. -/
def Adds {α : Type} (good : Target.Stmt → Prop) (act : Lowering α) : Prop :=
  ∀ c p a q, act c p = .ok (a, q) → ∃ added, q.made.toList = p.made.toList ++ added ∧ ∀ x ∈ added, good x

/-- What the parts of statements add is of a kind. -/
structure Admits (good : Target.Stmt → Prop) : Prop where
  define : ∀ name isAsync params body, good (.define name isAsync params body)
  assign : ∀ x value, good (.assign x value)
  expr : ∀ value, good (.expr value)

section Steps

variable {α β : Type} {good : Target.Stmt → Prop} {m : Lowering α} {k : α → Lowering β}

/-- A step that makes no statement. -/
theorem Adds.still (h : ∀ c p a q, m c p = .ok (a, q) → q.made = p.made) : Adds good m :=
  fun c p a q run => ⟨[], by simp [h c p a q run], by simp⟩

theorem Adds.pure (a : α) : Adds good (pure a) := by
  refine .still fun c p b q run => ?_
  cases run
  rfl

theorem Adds.throw (f : Failure) : Adds good (throw f : Lowering α) := by
  intro c p b q run
  cases run

theorem Adds.bind (first : Adds good m) (rest : ∀ a, Adds good (k a)) : Adds good (m >>= k) := by
  intro c p b r run
  obtain ⟨a, q, ended, later⟩ := bindOk run
  obtain ⟨xs, made, all⟩ := first c p a q ended
  obtain ⟨ys, made', all'⟩ := rest a c q b r later
  refine ⟨xs ++ ys, by simp [made', made], fun x member => ?_⟩
  rcases List.mem_append.mp member with member | member
  · exact all x member
  · exact all' x member

theorem readAdds : Adds good (read : Lowering Context) := by
  refine .still fun c p a q run => ?_
  cases run
  rfl

theorem getAdds : Adds good (get : Lowering Progress) := by
  refine .still fun c p a q run => ?_
  cases run
  rfl

theorem pushAdds {x : Target.Stmt} (kind : good x) : Adds good (push x) := by
  intro c p a q run
  cases run
  exact ⟨[x], by simp, by simpa using kind⟩

theorem askAdds (question : Typing.Check α) : Adds good (ask question) := by
  refine getAdds.bind fun p => ?_
  split
  · refine Adds.bind (.still fun c p a q run => ?_) fun _ => .pure _
    cases run
    rfl
  · exact .throw _

theorem nameOfAdds (x : SymbolId) : Adds good (nameOf x) := by
  refine readAdds.bind fun c => ?_
  split
  · exact .pure _
  · refine (askAdds _).bind fun symbol => getAdds.bind fun p => ?_
    split
    · refine Adds.bind (.still fun c p a q run => ?_) fun _ => .pure _
      cases run
      rfl
    · exact .throw _

theorem temporaryAdds (kind : Temporary) : Adds good (temporary kind) := by
  refine .still fun c p a q run => ?_
  cases run
  rfl

theorem collectedAdds (act : Lowering Unit) : Adds good (collected act) := by
  refine .still fun c p body q run => ?_
  rw [collectedRun] at run
  split at run
  · cases run
    rfl
  · cases run

theorem suiteAdds (act : Lowering Unit) : Adds good (suite act) := by
  refine (collectedAdds act).bind fun body => ?_
  split <;> exact .pure _

theorem functionBodyAdds (isAsync : Bool) (act : Lowering Unit) : Adds good (functionBody isAsync act) :=
  fun c p body q run => suiteAdds act { c with isAsync } p body q run

theorem mapAdds {f : α → Lowering β} (each : ∀ a, Adds good (f a)) (items : List α) : Adds good (items.mapM f) := by
  induction items with
  | nil => exact .pure _
  | cons a rest ih =>
    rw [List.mapM_cons]
    exact (each a).bind fun _ => ih.bind fun _ => .pure _

theorem filterMapAdds {f : α → Lowering (Option β)} (each : ∀ a, Adds good (f a)) (items : List α) :
    Adds good (items.filterMapM f) := by
  induction items with
  | nil => exact .pure _
  | cons a rest ih =>
    rw [List.filterMapM_cons]
    refine (each a).bind fun found => ?_
    cases found with
    | none => exact ih
    | some b => exact ih.bind fun _ => .pure _

end Steps

section Parts

variable {good : Target.Stmt → Prop}

theorem addsCompose : Composes (fun act => Adds good act) (fun _ => True) where
  pure := .pure
  throw := .throw
  bind := .bind
  get := getAdds
  ask := fun _ => askAdds _
  nameOf := nameOfAdds
  temporary := temporaryAdds
  symbolAt _ := trivial
  symbol _ := trivial
  form _ := trivial
  parts _ _ := trivial

theorem declaredSymbolAdds (mark : Mark) : Adds good (declaredSymbol? mark) := getAdds.bind fun _ => .pure _

theorem parametersAdds (params : List Param) : Adds good (parameters params) := by
  refine (mapAdds (fun p => ?_) params).bind fun _ => .pure _
  refine (declaredSymbolAdds p.mark).bind fun found => ?_
  split
  · exact .throw _
  · exact (nameOfAdds _).bind fun _ => .pure _

theorem functionStartAdds (mark : Mark) (name : String) (params : List Param) :
    Adds good (functionStart mark name params) := by
  refine (declaredSymbolAdds mark).bind fun found => ?_
  split
  · exact .throw _
  · exact (nameOfAdds _).bind fun _ => (parametersAdds params).bind fun _ => .pure _

theorem bindingLinesAdds (globals : ∀ names, good (.globals names)) (nonlocals : ∀ names, good (.nonlocals names))
    (assigned : List Mark) (own : List SymbolId) : Adds good (bindingLines assigned own) := by
  simp only [bindingLines]
  refine (filterMapAdds (fun _ => askAdds _) _).bind fun symbols => readAdds.bind fun context => ?_
  refine (mapAdds (fun x => (nameOfAdds x).bind fun _ => .pure _) _).bind fun named => ?_
  have last : Adds good (if ((named.filter (!·.1)).map (·.2)).isEmpty then pure ()
      else push (.nonlocals (sortedNames ((named.filter (!·.1)).map (·.2))))) := by
    split
    · exact .pure _
    · exact pushAdds (nonlocals _)
  split
  · exact last
  · exact (pushAdds (globals _)).bind fun _ => last

theorem collectLineAdds (collect : ∀ x, good (.collect x)) (params : List Target.Param) :
    Adds good (collectLine params) := by
  unfold collectLine
  split
  · exact pushAdds (collect _)
  · exact .pure _

theorem returnAdds (e : Expr) (v : Target.Expr) : Adds good (returnExpr e v) := by
  refine readAdds.bind fun context => ?_
  split
  · exact .pure _
  · refine (askAdds _).bind fun t => (askAdds _).bind fun isAny => ?_
    split
    · exact .pure _
    · refine (askAdds _).bind fun promised => ?_
      split <;> exact .pure _

/-! Expressions -/

theorem storedAdds (op : Source.AssignOp) (target : Expr) {value : Expr} (assigned : Adds good (lowerExpr value))
    (o k : Target.Expr) :
    Adds good (match op with
      | none => do return storeExpr o k (← lowerExpr value)
      | some _ => do
        let store ← newStore
        let assigned ← lowerExpr value
        let result ← combined op store.current target value assigned
        return storeExpr (.bind store.object o) (.bind store.key k) result) := by
  cases op with
  | none => exact assigned.bind fun _ => .pure _
  | some op =>
    refine addsCompose.newStore.bind fun store => assigned.bind fun v => ?_
    exact (addsCompose.combined (some op) trivial trivial).bind fun _ => .pure _

mutual

theorem lowerExprAdds (admits : Admits good) : (e : Expr) → Adds good (lowerExpr e)
  | .number _ value _ => by
    simp only [lowerExpr]
    exact addsCompose.number value
  | .string .. | .boolean .. => by
    simp only [lowerExpr]
    exact .pure _
  | .ident mark name => by
    simp only [lowerExpr]
    exact addsCompose.nameExpr mark name
  | .object _ properties => by
    simp only [lowerExpr]
    exact (lowerPropertiesAdds admits properties).bind fun _ => .pure _
  | .array _ elements => by
    simp only [lowerExpr]
    exact (lowerExprsAdds admits elements).bind fun _ => .pure _
  | .member mark target name => by
    simp only [lowerExpr]
    refine getAdds.bind fun p => ?_
    split
    · exact addsCompose.number _
    · exact (lowerExprAdds admits target).bind fun t => addsCompose.member mark trivial name
  | .element mark target index => by
    simp only [lowerExpr]
    refine getAdds.bind fun p => ?_
    split
    · exact addsCompose.number _
    · refine (lowerExprAdds admits target).bind fun t => (lowerExprAdds admits index).bind fun i => ?_
      exact addsCompose.element mark trivial index
  | .call _ callee args => by
    simp only [lowerExpr]
    exact (lowerExprsAdds admits args).bind fun _ => (lowerExprAdds admits callee).bind fun _ => .pure _
  | .unary _ op operand => by
    simp only [lowerExpr]
    exact (lowerExprAdds admits operand).bind fun _ => addsCompose.unary op trivial
  | .await _ operand => by
    simp only [lowerExpr]
    exact (lowerExprAdds admits operand).bind fun _ => .pure _
  | .binary _ op left right => by
    simp only [lowerExpr]
    refine (lowerExprAdds admits left).bind fun l => (askAdds _).bind fun t => ?_
    refine (lowerExprAdds admits right).bind fun r => ?_
    split
    · exact addsCompose.logical true t
    · exact addsCompose.logical false t
    · exact (askAdds _).bind fun u => addsCompose.operator _ t u
  | .conditional _ test yes no => by
    simp only [lowerExpr]
    refine (lowerExprAdds admits test).bind fun t => (addsCompose.condition trivial t).bind fun t => ?_
    exact (lowerExprAdds admits yes).bind fun y => (lowerExprAdds admits no).bind fun _ => .pure _
  | .assign _ op (.ident mark name) value => by
    simp only [lowerExpr]
    refine (addsCompose.targetName mark name).bind fun x => (lowerExprAdds admits value).bind fun v => ?_
    exact (addsCompose.combined op trivial trivial).bind fun _ => .pure _
  | .assign _ op (.member mark object name) value => by
    simp only [lowerExpr]
    exact (lowerExprAdds admits object).bind fun o => storedAdds op _ (lowerExprAdds admits value) o (.text name)
  | .assign _ op (.element mark object index) value => by
    simp only [lowerExpr]
    refine (lowerExprAdds admits object).bind fun o => (lowerExprAdds admits index).bind fun k => ?_
    exact storedAdds op _ (lowerExprAdds admits value) o k
  | .assign _ _ (.number ..) _ | .assign _ _ (.string ..) _ | .assign _ _ (.boolean ..) _ | .assign _ _ (.object ..) _
  | .assign _ _ (.array ..) _ | .assign _ _ (.call ..) _ | .assign _ _ (.unary ..) _ | .assign _ _ (.await ..) _
  | .assign _ _ (.binary ..) _ | .assign _ _ (.conditional ..) _ | .assign _ _ (.assign ..) _
  | .assign _ _ (.cast ..) _ | .assign _ _ (.arrow ..) _ => by
    simp only [lowerExpr]
    exact .throw _
  | .cast _ e _ => by
    simp only [lowerExpr]
    exact lowerExprAdds admits e
  | .arrow _ params body _ isAsync => by
    simp only [lowerExpr]
    refine (temporaryAdds .function).bind fun name => (parametersAdds params).bind fun r => ?_
    refine (functionBodyAdds isAsync _).bind fun inside => ?_
    exact (pushAdds (admits.define name isAsync _ inside)).bind fun _ => .pure _

theorem lowerExprsAdds (admits : Admits good) : (es : List Expr) → Adds good (lowerExprs es)
  | [] => by
    simp only [lowerExprs]
    exact .pure _
  | e :: es => by
    simp only [lowerExprs]
    exact (lowerExprAdds admits e).bind fun _ => (lowerExprsAdds admits es).bind fun _ => .pure _

theorem lowerPropertiesAdds (admits : Admits good) : (ps : List Property) → Adds good (lowerProperties ps)
  | [] => by
    simp only [lowerProperties]
    exact .pure _
  | .mk _ name value _ :: ps => by
    simp only [lowerProperties]
    exact (lowerExprAdds admits value).bind fun _ => (lowerPropertiesAdds admits ps).bind fun _ => .pure _

end

/-! Parts of functions -/

theorem hoistLinesAdds (admits : Admits good) (marks : List Mark) : Adds good (hoistLines marks) := by
  have lines (names : List String) : Adds good (forIn names PUnit.unit fun name _ => do
      push (.assign name .none)
      pure (ForInStep.yield PUnit.unit)) := by
    induction names with
    | nil => exact .pure _
    | cons name rest ih =>
      simp only [List.forIn_cons, bind_assoc, pure_bind]
      exact (pushAdds (admits.assign name .none)).bind fun _ => ih
  simp only [hoistLines]
  refine (filterMapAdds declaredSymbolAdds _).bind fun symbols => (mapAdds nameOfAdds _).bind fun names => ?_
  exact (lines _).bind fun _ => .pure _

theorem blockStartAdds (admits : Admits good) (globals : ∀ names, good (.globals names))
    (nonlocals : ∀ names, good (.nonlocals names)) (collect : ∀ x, good (.collect x)) (params : List Target.Param)
    (own : List SymbolId) (ss : List Stmt) : Adds good (blockStart params own ss) := by
  refine (filterMapAdds declaredSymbolAdds _).bind fun declared => ?_
  refine (bindingLinesAdds globals nonlocals _ _).bind fun _ => ?_
  exact (collectLineAdds collect params).bind fun _ => hoistLinesAdds admits _

theorem lowerDeclarationsAdds (admits : Admits good) (ss : List Stmt) : Adds good (lowerDeclarations ss) := by
  induction ss with
  | nil =>
    simp only [lowerDeclarations]
    exact .pure _
  | cons st rest ih =>
    unfold lowerDeclarations
    split
    · rename_i nil
      cases nil
    · rename_i same
      cases same
      refine (functionStartAdds _ _ _).bind fun r => (functionBodyAdds _ _).bind fun _ => ?_
      exact (pushAdds (admits.define _ _ _ _)).bind fun _ => ih
    · rename_i same
      cases same
      exact ih

theorem lowerDeclaratorsAdds (admits : Admits good) (isVar : Bool) (ds : List VarDeclarator) :
    Adds good (lowerDeclarators isVar ds) := by
  have named (mark : Mark) (name : String) : Adds good (variableName mark name) := by
    refine (declaredSymbolAdds mark).bind fun found => ?_
    split
    · exact .pure _
    · exact .throw _
  induction ds with
  | nil =>
    simp only [lowerDeclarators]
    exact .pure _
  | cons d rest ih =>
    obtain ⟨mark, name, type, init⟩ := d
    cases init with
    | some e =>
      unfold lowerDeclarators
      dsimp only
      refine (named mark name).bind fun x => (lowerExprAdds admits e).bind fun v => (nameOfAdds x).bind fun a => ?_
      exact (pushAdds (admits.assign a v)).bind fun _ => ih
    | none =>
      unfold lowerDeclarators
      dsimp only
      refine (named mark name).bind fun x => ?_
      cases isVar with
      | true => exact ih
      | false => exact (nameOfAdds x).bind fun a => (pushAdds (admits.assign a .none)).bind fun _ => ih

theorem enumLineAdds (admits : Admits good) (mark : Mark) : Adds good (enumLine mark) := by
  simp only [enumLine]
  refine (declaredSymbolAdds mark).bind fun found => ?_
  split
  · exact .pure _
  · refine (askAdds _).bind fun t => getAdds.bind fun p => ?_
    refine (mapAdds (fun m => (addsCompose.number _).bind fun _ => .pure _) _).bind fun entries => ?_
    exact (nameOfAdds _).bind fun a => pushAdds (admits.assign a _)

theorem exprStmtAdds (admits : Admits good) (place : Place) (m : Mark) (e : Expr) :
    Adds good (lowerStmt place (.expr m e)) := by
  obtain ⟨-, _, op, mark, name, value, rfl, lowered⟩ | lowered := exprStmtLowered place m e <;> rw [lowered]
  · refine (addsCompose.targetName mark name).bind fun x => (lowerExprAdds admits value).bind fun v => ?_
    exact (addsCompose.combined op trivial trivial).bind fun v => pushAdds (admits.assign x v)
  · refine (lowerExprAdds admits e).bind fun v => ?_
    split
    · exact pushAdds (admits.assign _ v)
    · exact pushAdds (admits.expr v)

end Parts

end Fragment.Emit
