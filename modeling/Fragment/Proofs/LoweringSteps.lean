import Fragment.Proofs.Making
import Fragment.Source.Sites

/-! Properties of making code that are properties of its steps.
Code is made by a few steps: looking at what is known, asking the checker, taking names and adding statements. If a
property holds of them and is kept when steps are put together, it is a property of making the code of any tree, as far
as it holds of asking for the types that are asked for there. -/
namespace Fragment.Emit

open Source (Mark Expr Property Param Body Block Stmt VarDeclarator AssignOp Site)
open Typing (SymbolId TypeId TypeFlags Check)
open Lowering

/-- A property of steps that is kept when they are put together, and that the steps have that are the same for every tree.
In a file that declares nothing, what is read must not tell the shapes of modules apart. -/
class Lowers (T : {α : Type} → Lowering α → Prop) : Prop where
  pure : ∀ {α : Type} (a : α), T (pure a)
  throw : ∀ {α : Type} (f : Failure), T (throw f : Lowering α)
  bind : ∀ {α β : Type} {m : Lowering α} {k : α → Lowering β}, T m → (∀ a, T (k a)) → T (m >>= k)
  get : T (get : Lowering Progress)
  own : ∀ (names : Progress → Names) (made : Progress → Array Target.Stmt),
    T (modify fun p => { p with names := names p, made := made p } : Lowering Unit)
  within : ∀ {α : Type} {m : Lowering α} (isAsync : Bool), T m → T (withReader (fun c => { c with isAsync }) m)
  reads : ∀ {α : Type} {k : Context → Lowering α}, (∀ c, T (k c)) →
    (∀ c kind, c.moduleSymbols = [] → k { c with kind } = k c) → T ((read : Lowering Context) >>= k)
  symbolAt : ∀ mark, T (ask (Check.symbolAt? mark))
  symbol : ∀ x, T (ask (Check.symbol x))
  form : ∀ t, T (ask (Check.form t))
  parts : ∀ t mask, T (ask (Check.allParts t mask))
  flag : ∀ t mask, T (ask (Check.hasFlag t mask))
  promised : ∀ t, T (ask (Typing.answers.promised t))

/-- A step that has a property. -/
class Has (T : {α : Type} → Lowering α → Prop) {α : Type} (m : Lowering α) : Prop where
  has : T m

section Rules

variable {T : {α : Type} → Lowering α → Prop} [lowers : Lowers T] {α β γ : Type} {m : Lowering α}
  {k : α → Lowering β}

instance pureHas (a : α) : Has T (pure a : Lowering α) := ⟨lowers.pure a⟩

instance throwHas (f : Failure) : Has T (throw f : Lowering α) := ⟨lowers.throw f⟩

instance refuseHas (message : String) : Has T (refuse message : Lowering α) := throwHas _

theorem Has.bind (first : Has T m) (rest : ∀ a, Has T (k a)) : Has T (m >>= k) :=
  ⟨lowers.bind first.has fun a => (rest a).has⟩

instance bindHas [first : Has T m] [rest : ∀ a, Has T (k a)] : Has T (m >>= k) := first.bind rest

instance getHas : Has T (get : Lowering Progress) := ⟨lowers.get⟩

instance ownHas (names : Progress → Names) (made : Progress → Array Target.Stmt) :
    Has T (modify fun p => { p with names := names p, made := made p } : Lowering Unit) := ⟨lowers.own names made⟩

instance withReaderHas (isAsync : Bool) [inner : Has T m] : Has T (withReader (fun c => { c with isAsync }) m) :=
  ⟨lowers.within isAsync inner.has⟩

theorem Has.reads {k : Context → Lowering α} (each : ∀ c, Has T (k c))
    (same : ∀ c kind, c.moduleSymbols = [] → k { c with kind } = k c) : Has T ((read : Lowering Context) >>= k) :=
  ⟨lowers.reads (fun c => (each c).has) same⟩

instance iteHas (b : Prop) [Decidable b] (m n : Lowering α) [Has T m] [Has T n] : Has T (if b then m else n) := by
  split <;> assumption

instance mapMHas (f : γ → Lowering α) (items : List γ) [each : ∀ c, Has T (f c)] : Has T (items.mapM f) := by
  induction items with
  | nil =>
    rw [List.mapM_nil]
    infer_instance
  | cons c rest ih =>
    rw [List.mapM_cons]
    infer_instance

instance filterMapMHas (f : γ → Lowering (Option α)) (items : List γ) [each : ∀ c, Has T (f c)] :
    Has T (items.filterMapM f) := by
  induction items with
  | nil =>
    rw [List.filterMapM_nil]
    infer_instance
  | cons c rest ih =>
    rw [List.filterMapM_cons]
    refine (each c).bind fun found => ?_
    split <;> infer_instance

instance forInHas (f : γ → β → Lowering (ForInStep β)) (items : List γ) (b : β) [each : ∀ c b, Has T (f c b)] :
    Has T (forIn items b f) := by
  induction items generalizing b with
  | nil =>
    rw [List.forIn_nil]
    infer_instance
  | cons c rest ih =>
    rw [List.forIn_cons]
    refine (each c b).bind fun step => ?_
    split
    · infer_instance
    · exact ih _

end Rules

/-! Steps that are the same for every tree -/

section Steps

variable {T : {α : Type} → Lowering α → Prop} [lowers : Lowers T]

instance pushHas (s : Target.Stmt) : Has T (push s) := by
  unfold push
  infer_instance

instance collectedHas (act : Lowering Unit) [Has T act] : Has T (collected act) := by
  unfold collected
  infer_instance

instance suiteHas (act : Lowering Unit) [Has T act] : Has T (suite act) := by
  unfold suite
  refine .bind inferInstance fun body => ?_
  split <;> infer_instance

instance nameOfHas (x : SymbolId) : Has T (nameOf x) := by
  have symbol : Has T (ask (Check.symbol x)) := ⟨lowers.symbol x⟩
  unfold nameOf
  refine .reads (fun c => ?_) fun _ _ _ => rfl
  split
  · infer_instance
  · refine .bind inferInstance fun s => .bind inferInstance fun p => ?_
    split <;> infer_instance

instance temporaryHas (kind : Temporary) : Has T (temporary kind) := by
  unfold temporary
  infer_instance

instance declaredSymbolHas (mark : Mark) : Has T (declaredSymbol? mark) := by
  unfold declaredSymbol?
  infer_instance

instance declaredSymbolsHas (marks : List Mark) : Has T (declaredSymbols marks) := by
  unfold declaredSymbols
  infer_instance

theorem hasComposes : Composes T fun question => T (ask question) where
  pure := lowers.pure
  throw := lowers.throw
  bind := lowers.bind
  get := lowers.get
  ask asked := asked
  nameOf x := (nameOfHas x).has
  temporary kind := (temporaryHas kind).has
  symbolAt := lowers.symbolAt
  symbol := lowers.symbol
  form := lowers.form
  parts := lowers.parts

variable {e : Expr} [typed : Has T (typeOf e)]

instance operatorHas (op : Source.BinaryOp) (left right : Target.Expr) (leftType rightType : TypeId) :
    Has T (operator op left leftType right rightType) := ⟨hasComposes.operator op leftType rightType⟩

instance nameExprHas (mark : Mark) (name : String) : Has T (nameExpr mark name) := ⟨hasComposes.nameExpr mark name⟩

instance targetNameHas (mark : Mark) (name : String) : Has T (targetName mark name) := ⟨hasComposes.targetName mark name⟩

instance conditionHas (test : Target.Expr) : Has T (condition e test) := ⟨hasComposes.condition typed.has test⟩

instance memberExprHas (mark : Mark) (name : String) (target : Target.Expr) : Has T (memberExpr mark e name target) :=
  ⟨hasComposes.member mark typed.has name⟩

instance elementExprHas (mark : Mark) (index : Expr) (target key : Target.Expr) :
    Has T (elementExpr mark e index target key) := ⟨hasComposes.element mark typed.has index⟩

instance unaryExprHas (op : Source.UnaryOp) (operand : Target.Expr) : Has T (unaryExpr op e operand) :=
  ⟨hasComposes.unary op typed.has⟩

instance logicalExprHas (isAnd : Bool) (leftType : TypeId) (left right : Target.Expr) :
    Has T (logicalExpr isAnd leftType left right) := ⟨hasComposes.logical isAnd leftType⟩

instance numberExprHas (n : Number) : Has T (numberExpr n) := ⟨hasComposes.number n⟩

instance newStoreHas : Has T newStore := ⟨hasComposes.newStore⟩

instance combinedHas (op : AssignOp) (current : Target.Expr) (value : Expr) [of : Has T (typeOf value)]
    (assigned : Target.Expr) : Has T (combined op current e value assigned) := ⟨hasComposes.combined op typed.has of.has⟩

instance returnExprHas (value : Target.Expr) : Has T (returnExpr e value) := by
  have flag (t : TypeId) : Has T (ask (Check.hasFlag t TypeFlags.any)) := ⟨lowers.flag t _⟩
  have promised (t : TypeId) : Has T (ask (Typing.answers.promised t)) := ⟨lowers.promised t⟩
  unfold returnExpr
  exact .reads (fun _ => inferInstance) fun _ _ _ => rfl

/-! Parts of functions -/

omit typed

instance parametersHas (params : List Param) : Has T (parameters params) := by
  unfold parameters
  have each (p : Param) : Has T (do
      match (← declaredSymbol? p.mark) with
      | none => refuse ("parameter '" ++ p.name ++ "' has no symbol")
      | some x =>
        let name ← nameOf x
        let mode : Target.ParamMode := if p.rest then .rest else if p.optional then .optional else .required
        return ((⟨name, mode⟩ : Target.Param), x)) := by
    refine .bind inferInstance fun found => ?_
    split <;> infer_instance
  infer_instance

/-- Which symbols belong to the outermost level depends on the shape of the module only where the file declares some. -/
instance bindingLinesHas (assigned : List Mark) (own : List SymbolId) : Has T (bindingLines assigned own) := by
  have symbolAt (mark : Mark) : Has T (ask (Check.symbolAt? mark)) := ⟨lowers.symbolAt mark⟩
  unfold bindingLines
  refine .bind inferInstance fun symbols => .reads (fun c => inferInstance) fun c kind none => ?_
  simp only [none, List.contains_nil, Bool.false_and]
  rfl

instance hoistLinesHas (marks : List Mark) : Has T (hoistLines marks) := by
  unfold hoistLines
  infer_instance

instance collectLineHas (params : List Target.Param) : Has T (collectLine params) := by
  unfold collectLine
  split <;> infer_instance

instance variableNameHas (mark : Mark) (name : String) : Has T (variableName mark name) := by
  unfold variableName
  refine .bind inferInstance fun found => ?_
  split <;> infer_instance

instance blockStartHas (params : List Target.Param) (own : List SymbolId) (ss : List Stmt) :
    Has T (blockStart params own ss) := by
  unfold blockStart
  infer_instance

instance functionStartHas (mark : Mark) (name : String) (params : List Param) : Has T (functionStart mark name params) := by
  unfold functionStart
  refine .bind inferInstance fun found => ?_
  split <;> infer_instance

instance functionBodyHas (isAsync : Bool) (act : Lowering Unit) [Has T act] : Has T (functionBody isAsync act) := by
  unfold functionBody
  infer_instance

end Steps

/-! Places of which types are asked for -/

section Trees

variable (T : {α : Type} → Lowering α → Prop)

/-- What is asked about a place when code is made of it has the property. -/
def SiteHas : Site → Prop
  | .expr e => T (typeOf e)
  | .enum m => T (enumLine m)
  | _ => True

def SitesHave (sites : List Site) : Prop := ∀ site ∈ sites, SiteHas T site

variable {T}

theorem sitesHaveAppend {xs ys : List Site} : SitesHave T (xs ++ ys) ↔ SitesHave T xs ∧ SitesHave T ys :=
  List.forall_mem_append

theorem sitesHaveCons {x : Site} {xs : List Site} : SitesHave T (x :: xs) ↔ SiteHas T x ∧ SitesHave T xs :=
  List.forall_mem_cons

/-- The first site of an expression is the expression itself. -/
theorem SitesHave.self {e : Expr} (sites : SitesHave T e.sites) : Has T (typeOf e) :=
  ⟨sites (.expr e) (by cases e <;> exact List.mem_cons_self ..)⟩

/-- A store to a property, with or without an operator. -/
theorem storedHas [Lowers T] (op : AssignOp) {target value : Expr} (typed : Has T (typeOf target))
    (of : Has T (typeOf value)) (o k : Target.Expr) [Has T (lowerExpr value)] :
    Has T (match op with
      | none => do return storeExpr o k (← lowerExpr value)
      | some _ => do
        let store ← newStore
        let assigned ← lowerExpr value
        let result ← combined op store.current target value assigned
        return storeExpr (.bind store.object o) (.bind store.key k) result) := by
  split <;> infer_instance

/-- A statement that is an expression. An assignment of a variable has no value there. -/
theorem exprStmtHas [Lowers T] (place : Place) (m : Mark) {e : Expr} (whole : Has T (lowerExpr e))
    (part : ∀ m op mark name value, e = .assign m op (.ident mark name) value →
      Has T (typeOf (.ident mark name)) ∧ Has T (typeOf value) ∧ Has T (lowerExpr value)) :
    Has T (lowerStmt place (.expr m e)) := by
  obtain ⟨-, _, op, mark, name, value, rfl, lowered⟩ | lowered := exprStmtLowered place m e <;> rw [lowered]
  · obtain ⟨_, _, _⟩ := part _ _ _ _ _ rfl
    infer_instance
  · infer_instance

mutual

theorem lowerExprHas [Lowers T] : (e : Expr) → SitesHave T e.sites → Has T (lowerExpr e)
  | .number .., _ | .string .., _ | .boolean .., _ | .ident .., _ => by
    unfold lowerExpr
    infer_instance
  | .object _ properties, sites => by
    have := lowerPropertiesHas properties (sitesHaveCons.mp sites).2
    unfold lowerExpr
    infer_instance
  | .array _ elements, sites => by
    have := lowerExprsHas elements (sitesHaveCons.mp sites).2
    unfold lowerExpr
    infer_instance
  | .member _ target _, sites => by
    have inner := (sitesHaveCons.mp sites).2
    have := inner.self
    have := lowerExprHas target inner
    unfold lowerExpr
    refine .bind inferInstance fun p => ?_
    split <;> infer_instance
  | .element _ target index, sites => by
    obtain ⟨-, inner, inside⟩ := sitesHaveCons.mp sites |>.imp_right sitesHaveAppend.mp
    have := inner.self
    have := lowerExprHas target inner
    have := lowerExprHas index inside
    unfold lowerExpr
    refine .bind inferInstance fun p => ?_
    split <;> infer_instance
  | .call _ callee args, sites => by
    obtain ⟨-, called, given⟩ := sitesHaveCons.mp sites |>.imp_right sitesHaveAppend.mp
    have := lowerExprHas callee called
    have := lowerExprsHas args given
    unfold lowerExpr
    infer_instance
  | .unary _ _ operand, sites => by
    have inner := (sitesHaveCons.mp sites).2
    have := inner.self
    have := lowerExprHas operand inner
    unfold lowerExpr
    infer_instance
  | .await _ operand, sites | .cast _ operand _, sites => by
    have := lowerExprHas operand (sitesHaveCons.mp sites).2
    unfold lowerExpr
    infer_instance
  | .binary _ _ left right, sites => by
    obtain ⟨-, first, second⟩ := sitesHaveCons.mp sites |>.imp_right sitesHaveAppend.mp
    have := first.self
    have := second.self
    have := lowerExprHas left first
    have := lowerExprHas right second
    unfold lowerExpr
    refine .bind inferInstance fun l => .bind inferInstance fun t => .bind inferInstance fun r => ?_
    split <;> infer_instance
  | .conditional _ test yes no, sites => by
    obtain ⟨-, both, third⟩ := sitesHaveCons.mp sites |>.imp_right sitesHaveAppend.mp
    obtain ⟨first, second⟩ := sitesHaveAppend.mp both
    have := first.self
    have := lowerExprHas test first
    have := lowerExprHas yes second
    have := lowerExprHas no third
    unfold lowerExpr
    infer_instance
  | .assign _ _ (.ident ..) value, sites => by
    obtain ⟨-, target, given⟩ := sitesHaveCons.mp sites |>.imp_right sitesHaveAppend.mp
    have := target.self
    have := given.self
    have := lowerExprHas value given
    unfold lowerExpr
    infer_instance
  | .assign _ op (.member _ object name) value, sites => by
    obtain ⟨-, target, given⟩ := sitesHaveCons.mp sites |>.imp_right sitesHaveAppend.mp
    have := lowerExprHas object (sitesHaveCons.mp target).2
    have := lowerExprHas value given
    unfold lowerExpr
    exact .bind inferInstance fun o => storedHas op target.self given.self o (.text name)
  | .assign _ op (.element _ object index) value, sites => by
    obtain ⟨-, target, given⟩ := sitesHaveCons.mp sites |>.imp_right sitesHaveAppend.mp
    obtain ⟨-, inner, inside⟩ := sitesHaveCons.mp target |>.imp_right sitesHaveAppend.mp
    have := lowerExprHas object inner
    have := lowerExprHas index inside
    have := lowerExprHas value given
    unfold lowerExpr
    exact .bind inferInstance fun o => .bind inferInstance fun k => storedHas op target.self given.self o k
  | .assign _ _ (.number ..) _, _ | .assign _ _ (.string ..) _, _ | .assign _ _ (.boolean ..) _, _
  | .assign _ _ (.object ..) _, _ | .assign _ _ (.array ..) _, _ | .assign _ _ (.call ..) _, _
  | .assign _ _ (.unary ..) _, _ | .assign _ _ (.await ..) _, _ | .assign _ _ (.binary ..) _, _
  | .assign _ _ (.conditional ..) _, _ | .assign _ _ (.assign ..) _, _ | .assign _ _ (.cast ..) _, _
  | .assign _ _ (.arrow ..) _, _ => by
    unfold lowerExpr
    infer_instance
  | .arrow _ _ body _ _, sites => by
    have inner (made : List Target.Param) (own : List SymbolId) :=
      lowerBodyHas made own body (sitesHaveAppend.mp sites).2
    unfold lowerExpr
    infer_instance

theorem lowerExprsHas [Lowers T] : (es : List Expr) → SitesHave T (Source.exprSites es) →
    Has T (lowerExprs es)
  | [], _ => by
    unfold lowerExprs
    infer_instance
  | e :: es, sites => by
    have := lowerExprHas e (sitesHaveAppend.mp sites).1
    have := lowerExprsHas es (sitesHaveAppend.mp sites).2
    unfold lowerExprs
    infer_instance

theorem lowerPropertiesHas [Lowers T] : (ps : List Property) →
    SitesHave T (Source.propertySites ps) → Has T (lowerProperties ps)
  | [], _ => by
    unfold lowerProperties
    infer_instance
  | .mk _ _ value _ :: ps, sites => by
    have := lowerExprHas value (sitesHaveAppend.mp sites).1
    have := lowerPropertiesHas ps (sitesHaveAppend.mp sites).2
    unfold lowerProperties
    infer_instance

theorem lowerBodyHas [Lowers T] (params : List Target.Param) (own : List SymbolId) :
    (b : Body) → SitesHave T b.sites → Has T (lowerBody params own b)
  | .block (.mk _ ss), sites => by
    have := lowerDeclarationsHas ss sites
    have := lowerStmtsHas .block ss sites
    unfold lowerBody
    infer_instance
  | .expr e, sites => by
    have := SitesHave.self sites
    have := lowerExprHas e sites
    unfold lowerBody
    infer_instance

theorem lowerDeclarationsHas [Lowers T] : (ss : List Stmt) →
    SitesHave T (Source.stmtSites ss) → Has T (lowerDeclarations ss)
  | [], _ => by
    unfold lowerDeclarations
    infer_instance
  | .function _ _ _ _ (some (.mk _ ss)) _ _ :: rest, sites => by
    obtain ⟨own, others⟩ := sitesHaveAppend.mp sites
    have inner := (sitesHaveAppend.mp own).2
    have := lowerDeclarationsHas ss inner
    have := lowerStmtsHas .block ss inner
    have := lowerDeclarationsHas rest others
    unfold lowerDeclarations
    infer_instance
  | .function _ _ _ _ none _ _ :: rest, sites | .expr .. :: rest, sites | .var .. :: rest, sites | .ret .. :: rest, sites
  | .brk _ :: rest, sites | .cont _ :: rest, sites | .empty _ :: rest, sites | .block _ :: rest, sites
  | .cond .. :: rest, sites | .loop .. :: rest, sites | .typeAlias .. :: rest, sites | .interface .. :: rest, sites
  | .enum .. :: rest, sites | .classDecl .. :: rest, sites | .importDecl .. :: rest, sites => by
    unfold lowerDeclarations
    exact lowerDeclarationsHas rest (sitesHaveAppend.mp sites).2

theorem lowerStmtsHas [Lowers T] (place : Place) : (ss : List Stmt) →
    SitesHave T (Source.stmtSites ss) → Has T (lowerStmts place ss)
  | [], _ => by
    unfold lowerStmts
    infer_instance
  | s :: ss, sites => by
    have := lowerStmtHas place s (sitesHaveAppend.mp sites).1
    have := lowerStmtsHas place ss (sitesHaveAppend.mp sites).2
    unfold lowerStmts
    infer_instance

theorem lowerDeclaratorsHas [Lowers T] (isVar : Bool) : (ds : List VarDeclarator) →
    SitesHave T (Source.declaratorSites ds) → Has T (lowerDeclarators isVar ds)
  | [], _ => by
    unfold lowerDeclarators
    infer_instance
  | .mk _ _ _ (some e) :: ds, sites => by
    obtain ⟨own, others⟩ := sitesHaveAppend.mp sites
    have := lowerExprHas e (sitesHaveCons.mp own).2
    have := lowerDeclaratorsHas isVar ds others
    unfold lowerDeclarators
    infer_instance
  | .mk _ _ _ none :: ds, sites => by
    have := lowerDeclaratorsHas isVar ds (sitesHaveAppend.mp sites).2
    unfold lowerDeclarators
    infer_instance

theorem lowerStmtHas [Lowers T] (place : Place) : (s : Stmt) → SitesHave T s.sites →
    Has T (lowerStmt place s)
  | .expr m e, sites => exprStmtHas place m (lowerExprHas e sites) fun _ _ _ _ _ same => assignedHas e sites same
  | .var _ _ declarations _, sites => by
    have inner (isVar : Bool) := lowerDeclaratorsHas isVar declarations sites
    unfold lowerStmt
    infer_instance
  | .ret _ (some e), sites => by
    have := SitesHave.self sites
    have := lowerExprHas e sites
    unfold lowerStmt
    infer_instance
  | .block (.mk _ ss), sites => by
    have := lowerDeclarationsHas ss sites
    have := lowerStmtsHas .block ss sites
    unfold lowerStmt
    infer_instance
  | .cond _ test yes (some no), sites => by
    obtain ⟨both, third⟩ := sitesHaveAppend.mp sites
    obtain ⟨first, second⟩ := sitesHaveAppend.mp both
    have := first.self
    have := lowerExprHas test first
    have := lowerStmtHas .branch yes second
    have := lowerStmtHas .branch no third
    unfold lowerStmt
    infer_instance
  | .cond _ test yes none, sites => by
    obtain ⟨first, second⟩ := sitesHaveAppend.mp (sitesHaveAppend.mp sites).1
    have := first.self
    have := lowerExprHas test first
    have := lowerStmtHas .branch yes second
    unfold lowerStmt
    infer_instance
  | .loop _ test body, sites => by
    obtain ⟨first, second⟩ := sitesHaveAppend.mp sites
    have := first.self
    have := lowerExprHas test first
    have := lowerStmtHas .branch body second
    unfold lowerStmt
    infer_instance
  | .function _ _ _ _ (some (.mk _ ss)) _ _, sites => by
    have inner := (sitesHaveAppend.mp sites).2
    have := lowerDeclarationsHas ss inner
    have := lowerStmtsHas .block ss inner
    unfold lowerStmt
    infer_instance
  | .enum mark _ _ _ _, sites => by
    have : Has T (enumLine mark) := ⟨(sitesHaveCons.mp sites).1⟩
    unfold lowerStmt
    infer_instance
  | .function _ _ _ _ none _ _, _ | .ret _ none, _ | .brk _, _ | .cont _, _ | .empty _, _ | .typeAlias .., _
  | .interface .., _ | .classDecl .., _ | .importDecl .., _ => by
    unfold lowerStmt
    infer_instance

/-- The value of an assignment. -/
theorem assignedHas [Lowers T] : (e : Expr) → SitesHave T e.sites → {m mark : Mark} →
    {op : AssignOp} → {name : String} → {value : Expr} → e = .assign m op (.ident mark name) value →
    Has T (typeOf (.ident mark name)) ∧ Has T (typeOf value) ∧ Has T (lowerExpr value)
  | .assign _ _ _ v, sites => by
    obtain ⟨-, target, given⟩ := sitesHaveCons.mp sites |>.imp_right sitesHaveAppend.mp
    have value := lowerExprHas v given
    rintro ⟨⟩
    exact ⟨target.self, given.self, value⟩
  | .number .., _ | .string .., _ | .boolean .., _ | .ident .., _ | .object .., _ | .array .., _ | .member .., _
  | .element .., _ | .call .., _ | .unary .., _ | .await .., _ | .binary .., _ | .conditional .., _ | .cast .., _
  | .arrow .., _ => nofun

end

theorem fileStatementsHas [Lowers T] {ss : List Stmt} (sites : SitesHave T (Source.stmtSites ss)) :
    Has T (fileStatements ss) := by
  have := lowerDeclarationsHas ss sites
  have := lowerStmtsHas .top ss sites
  unfold fileStatements
  infer_instance

theorem lowerFileHas [Lowers T] {file : Source.SourceFile} (kind : ModuleKind) (sites : SitesHave T file.sites) :
    Has T (lowerFile file kind) := by
  have := fileStatementsHas sites
  unfold lowerFile
  split <;> infer_instance

end Trees

end Fragment.Emit
