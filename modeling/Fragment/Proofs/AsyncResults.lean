import Fragment.Proofs.Adding
import Fragment.Proofs.RequiredRead
import Fragment.Proofs.Scoping
import Fragment.Proofs.Unpromised

/-! What async functions resolve to.
A returned expression is awaited if its type is any or that of a promise. A type that unites a promise with something
else is neither, so the code returns a value of it as it is. If no such expression is returned, unless its form tells
that its value is no promise, then awaiting a call of the function once gives no promise. -/
namespace Fragment.Emit

open Source (Mark Expr Property Param Body Block Stmt VarDeclarator)
open Typing (SymbolId State TypeFlags)
open Target (returnedIn)
open Lowering

/-- Whether the form of an expression tells that its value is no promise. -/
def unpromised : Expr → Bool
  | .number .. | .string .. | .boolean .. | .object .. | .array .. | .await .. => true
  | .unary _ op operand => op ≠ .plus || unpromised operand
  | .binary _ op left right => match op with
    | .and | .or => unpromised left && unpromised right
    | _ => true
  | .conditional _ _ yes no => unpromised yes && unpromised no
  | .assign _ op _ value => op.isSome || unpromised value
  | .cast _ e _ => unpromised e
  | .ident .. | .member .. | .element .. | .call .. | .arrow .. => false

/-- A statement that returns nothing. -/
def Silent (x : Target.Stmt) : Prop := x.returned = []

theorem silentAdmits : Admits Silent := ⟨fun _ _ _ _ => rfl, fun _ _ => rfl, fun _ => rfl⟩

theorem returnedAppend (xs ys : List Target.Stmt) : returnedIn (xs ++ ys) = returnedIn xs ++ returnedIn ys := by
  induction xs with
  | nil => rfl
  | cons x xs ih => simp [returnedIn, ih]

theorem silentReturns {xs : List Target.Stmt} (silent : ∀ x ∈ xs, Silent x) : returnedIn xs = [] := by
  induction xs with
  | nil => rfl
  | cons x xs ih =>
    rw [List.forall_mem_cons] at silent
    rw [returnedIn, silent.1, ih silent.2, List.append_nil]

/-! The code of expressions that are no promises -/

theorem operatorSettled (op : Source.BinaryOp) (a b : Target.Expr) (t u : Typing.TypeId) :
    Results (fun e => e.settled = true) (operator op a t b u) := by
  have summed : Results (fun e => e.settled = true) (sum a b t u) := by
    refine Results.last fun numbers => ?_
    split
    · exact .pure rfl
    · refine Results.last fun _ => Results.last fun _ => ?_
      split <;> exact .pure rfl
  have numbers (op : Target.Operator) : Results (fun e => e.settled = true) (onNumbers op a b t u) := by
    refine Results.last fun numbers => ?_
    split <;> exact .pure rfl
  have strict (negated : Bool) : Results (fun e => e.settled = true) (strictEquality negated a b t u) := by
    refine Results.last fun _ => Results.last fun _ => Results.last fun _ => ?_
    dsimp only
    split
    · exact .pure rfl
    · cases negated <;> exact .pure rfl
  cases op with
  | add => exact summed
  | sub | mul => exact numbers _
  | strictEqual | strictNotEqual => exact strict _
  | and | or => exact .throw _
  | _ => exact .pure rfl

theorem combinedSettled (op : Source.AssignOp) (a b : Target.Expr) (target value : Expr)
    (plain : op = none → b.settled = true) : Results (fun e => e.settled = true) (combined op a target value b) := by
  cases op with
  | none => exact .pure (plain rfl)
  | some op => exact Results.last fun t => Results.last fun u => operatorSettled op a b t u

/-- The left operand is kept in a variable, which the code reads again. -/
theorem logicalSettled {isAnd : Bool} {a b : Target.Expr} (left : a.settled = true) (right : b.settled = true)
    (t : Typing.TypeId) : Results (fun e => e.settled = true) (logicalExpr isAnd t a b) := by
  refine Results.last fun bools => ?_
  split
  · cases isAnd <;> exact .pure (by simp [Target.Expr.settled, left, right])
  · refine Results.last fun temp => .pure ?_
    cases isAnd <;> simp [Target.Expr.settled, Target.Expr.settledName, Target.Expr.isName, left, right]

theorem unarySettled (op : Source.UnaryOp) (source : Expr) {a : Target.Expr} (plain : op = .plus → a.settled = true) :
    Results (fun e => e.settled = true) (unaryExpr op source a) := by
  refine Results.last fun t => ?_
  cases op with
  | not =>
    refine Results.last fun bools => ?_
    split <;> exact .pure rfl
  | typeof => exact .pure rfl
  | minus => exact Results.last fun numbers => .pure rfl
  | plus =>
    refine Results.last fun numbers => .pure ?_
    cases numbers
    · rfl
    · exact plain rfl

theorem storedSettled (op : Source.AssignOp) (target : Expr) {value : Expr} (o k : Target.Expr)
    (plain : op = none → Results (fun e => e.settled = true) (lowerExpr value)) :
    Results (fun e => e.settled = true) (match op with
      | none => do return storeExpr o k (← lowerExpr value)
      | some _ => do
        let store ← newStore
        let assigned ← lowerExpr value
        let result ← combined op store.current target value assigned
        return storeExpr (.bind store.object o) (.bind store.key k) result) := by
  have stored (o k : Target.Expr) {v : Target.Expr} (settled : v.settled = true) : (storeExpr o k v).settled = true := by
    simp [storeExpr, Target.Expr.settled, Target.lastSettled, settled]
  cases op with
  | none => exact (plain rfl).bind fun v settled => .pure (stored o k settled)
  | some op =>
    refine Results.last fun store => Results.last fun v => ?_
    refine (combinedSettled (some op) store.current v target value nofun).bind fun result settled => .pure ?_
    exact stored _ _ settled

theorem unpromisedSettled : (e : Expr) → unpromised e = true → Results (fun code => code.settled = true) (lowerExpr e)
  | .number _ value _, _ => by
    simp only [lowerExpr, numberExpr]
    split
    · exact .pure rfl
    · exact .throw _
  | .string .., _ | .boolean .., _ => by
    simp only [lowerExpr]
    exact .pure rfl
  | .object .., _ | .array .., _ | .await .., _ => by
    simp only [lowerExpr]
    exact Results.last fun _ => .pure rfl
  | .unary _ op operand, plain => by
    simp only [lowerExpr, unpromised, Bool.or_eq_true, decide_eq_true_eq] at plain ⊢
    cases op with
    | plus =>
      refine (unpromisedSettled operand (by simpa using plain)).bind fun v settled => ?_
      exact unarySettled .plus operand fun _ => settled
    | minus | not | typeof => exact Results.last fun v => unarySettled _ operand nofun
  | .binary _ op left right, plain => by
    simp only [lowerExpr, unpromised] at plain ⊢
    by_cases logical : op = .and ∨ op = .or
    · have both : unpromised left = true ∧ unpromised right = true := by
        rcases logical with rfl | rfl <;> simpa using plain
      refine (unpromisedSettled left both.1).bind fun l first => Results.last fun t => ?_
      refine (unpromisedSettled right both.2).bind fun r second => ?_
      rcases logical with rfl | rfl <;> exact logicalSettled first second t
    · refine Results.last fun l => Results.last fun t => Results.last fun r => ?_
      split
      · exact absurd (.inl rfl) logical
      · exact absurd (.inr rfl) logical
      · exact Results.last fun u => operatorSettled _ l r t u
  | .conditional _ test yes no, plain => by
    simp only [lowerExpr, unpromised, Bool.and_eq_true] at plain ⊢
    refine Results.last fun t => Results.last fun t => (unpromisedSettled yes plain.1).bind fun y first => ?_
    refine (unpromisedSettled no plain.2).bind fun n second => .pure ?_
    simp [Target.Expr.settled, first, second]
  | .assign _ op (.ident mark name) value, plain => by
    simp only [lowerExpr, unpromised, Bool.or_eq_true] at plain ⊢
    refine Results.last fun x => ?_
    have assigned : Results (fun v : Target.Expr => op = none → v.settled = true) (lowerExpr value) := by
      rcases plain with some | plain
      · intro c p a q run none
        simp [none] at some
      · exact fun c p a q run _ => unpromisedSettled value plain c p a q run
    refine assigned.bind fun v settled => ?_
    refine (combinedSettled op _ v (.ident mark name) value settled).bind fun result settled => .pure ?_
    simpa [Target.Expr.settled] using settled
  | .assign _ op (.member mark object name) value, plain => by
    simp only [lowerExpr, unpromised, Bool.or_eq_true] at plain ⊢
    refine Results.last fun o => storedSettled op _ o _ fun none => ?_
    exact unpromisedSettled value (plain.resolve_left (by simp [none]))
  | .assign _ op (.element mark object index) value, plain => by
    simp only [lowerExpr, unpromised, Bool.or_eq_true] at plain ⊢
    refine Results.last fun o => Results.last fun k => storedSettled op _ o k fun none => ?_
    exact unpromisedSettled value (plain.resolve_left (by simp [none]))
  | .assign _ _ (.number ..) _, _ | .assign _ _ (.string ..) _, _ | .assign _ _ (.boolean ..) _, _
  | .assign _ _ (.object ..) _, _ | .assign _ _ (.array ..) _, _ | .assign _ _ (.call ..) _, _
  | .assign _ _ (.unary ..) _, _ | .assign _ _ (.await ..) _, _ | .assign _ _ (.binary ..) _, _
  | .assign _ _ (.conditional ..) _, _ | .assign _ _ (.assign ..) _, _ | .assign _ _ (.cast ..) _, _
  | .assign _ _ (.arrow ..) _, _ => by
    simp only [lowerExpr]
    exact .throw _
  | .cast _ e _, plain => by
    simp only [lowerExpr, unpromised] at plain ⊢
    exact unpromisedSettled e plain
  | .ident .., plain | .member .., plain | .element .., plain | .call .., plain | .arrow .., plain => by
    simp [unpromised] at plain

/-! Statements of an async function -/

/-- The type of an expression is any or that of a promise. -/
def Awaited (s : State) (e : Expr) : Prop :=
  ∃ t, s.nodeTypes[e.mark.id]? = some t ∧ ((s.typeInfo t).flags.meets TypeFlags.any = true ∨
    ∃ inner, (Typing.answers.promised t).run s = .ok (some inner, s))

/-- A step in an async function, before which all returned expressions are settled and after which they are. -/
def Settling {α : Type} (s : State) (c : Context) (Q : α → Prop) (act : Lowering α) : Prop :=
  ∀ p a q, p.typing = s → Distinct c p.names → (∀ e ∈ returnedIn p.made.toList, e.settled = true) →
    act { c with isAsync := true } p = .ok (a, q) → (∀ e ∈ returnedIn q.made.toList, e.settled = true) ∧ Q a

section Settling

variable {α β : Type} {s : State} {c : Context} {outer laid : List SymbolId} {Q : α → Prop} {R : β → Prop}
  {m : Lowering α} {k : α → Lowering β}

theorem Adds.settling (silent : Adds Silent m) (results : Results Q m) : Settling s c Q m := by
  intro p a q _ _ settled run
  obtain ⟨added, made, none⟩ := silent _ _ _ _ run
  rw [made, returnedAppend, silentReturns none, List.append_nil]
  exact ⟨settled, results _ _ _ _ run⟩

theorem Adds.quiet (silent : Adds Silent m) : Settling s c (fun _ => True) m :=
  silent.settling fun _ _ _ _ _ => trivial

theorem Settling.bind {post : α → List Target.Stmt → Names → Prop} (known : s.PromiseKnown) (steps : Steps s c post m)
    (first : Settling s c Q m) (rest : ∀ a, Q a → Settling s c R (k a)) : Settling s c R (m >>= k) := by
  intro p b r typing distinct settled run
  obtain ⟨a, q, ended, later⟩ := bindOk run
  obtain ⟨kept, sane, -, -⟩ := steps true p a q (fun _ => known) typing distinct ended
  obtain ⟨settled, holds⟩ := first p a q typing distinct settled ended
  exact rest a holds q b r kept sane settled later

theorem pushSettling {x : Target.Stmt} (settled : ∀ e ∈ x.returned, e.settled = true) :
    Settling s c (fun _ => True) (push x) := by
  intro p a q _ _ before run
  cases run
  simp only [Array.toList_push, returnedAppend, returnedIn, List.append_nil, List.mem_append]
  refine ⟨fun e member => ?_, trivial⟩
  rcases member with member | member
  · exact before e member
  · exact settled e member

theorem suiteReturns {act : Lowering Unit} (h : Settling s c (fun _ => True) act) {p q : Progress}
    {body : List Target.Stmt} (typing : p.typing = s) (distinct : Distinct c p.names)
    (run : suite act { c with isAsync := true } p = .ok (body, q)) : ∀ e ∈ returnedIn body, e.settled = true := by
  obtain ⟨inside, r, collected, run⟩ := bindOk run
  rw [collectedRun] at collected
  split at collected
  case h_2 => cases collected
  case h_1 ended =>
    have settled := (h { p with made := #[] } _ _ typing distinct (by simp [returnedIn]) ended).1
    simp only [Except.ok.injEq, Prod.mk.injEq] at collected
    rw [collected.1] at settled
    cases inside with
    | nil =>
      cases run
      simp [returnedIn, Target.Stmt.returned]
    | cons x xs =>
      cases run
      exact settled

theorem suiteSettling {act : Lowering Unit} (h : Settling s c (fun _ => True) act) :
    Settling s c (fun body => ∀ e ∈ returnedIn body, e.settled = true) (suite act) := by
  intro p body q typing distinct before run
  have quiet : Settling s c (fun _ => True) (suite act) := (suiteAdds act).quiet
  exact ⟨(quiet p body q typing distinct before run).1, suiteReturns h typing distinct run⟩

theorem awaitedReturn {e : Expr} {p : Progress} (awaited : Awaited p.typing e) (v : Target.Expr) :
    returnExpr e v { c with isAsync := true } p = .ok (.await v, p) := by
  obtain ⟨t, known, kind⟩ := awaited
  have flag : ask (Typing.Check.hasFlag t TypeFlags.any) { c with isAsync := true } p =
      .ok ((p.typing.typeInfo t).flags.meets TypeFlags.any, p) := askKnown rfl
  simp only [returnExpr, bindRun, readRun, Bool.not_true, Bool.false_eq_true, if_false, typeOfKnown known, flag]
  split
  case isTrue => rfl
  case isFalse other =>
    obtain ⟨inner, found⟩ := kind.resolve_left other
    simp only [bindRun, askKnown found, Option.isSome_some, if_true]
    rfl

theorem returnSettled (e : Expr) {v : Target.Expr} (settled : v.settled = true) :
    Results (fun r => r.settled = true) (returnExpr e v) := by
  refine Results.last fun context => ?_
  split
  · exact .pure settled
  · refine Results.last fun t => Results.last fun isAny => ?_
    split
    · exact .pure rfl
    · refine Results.last fun promised => ?_
      split
      · exact .pure rfl
      · exact .pure settled

theorem conditionLays (outer : List SymbolId) {e : Expr} (typed : Typed s e) (test : Target.Expr) :
    Lays s c outer [] (condition e test) := laysCompose.condition (typedReads typed) test

theorem returnSettling {e : Expr} {v : Target.Expr} (kind : Awaited s e ∨ v.settled = true) :
    Settling s c (fun r => r.settled = true) (returnExpr e v) := by
  rcases kind with awaited | settled
  · intro p r q typing _ before run
    subst typing
    cases (awaitedReturn awaited v).symm.trans run
    exact ⟨before, rfl⟩
  · exact (returnAdds e v).settling (returnSettled e settled)

/-- The code that returns an expression returns a settled one. -/
theorem returnSettles (known : s.PromiseKnown) {e : Expr} (kind : Awaited s e ∨ unpromised e = true) (typed : Typed s e)
    (ruled : ScopedExpr s c outer e) :
    Settling s c (fun _ => True) (lowerExpr e >>= fun v => returnExpr e v >>= fun v => push (.ret v)) := by
  have value : Settling s c (fun v : Target.Expr => Awaited s e ∨ v.settled = true) (lowerExpr e) := by
    refine (lowerExprAdds silentAdmits e).settling fun c p v q run => ?_
    exact kind.imp_right fun plain => unpromisedSettled e plain c p v q run
  refine value.bind known (lowerExprLays outer e ruled) fun v kind => ?_
  have steps : Lays s c outer [] (returnExpr e v) := returnLays typed
  refine (returnSettling kind).bind known steps fun r settled => ?_
  exact pushSettling (by simpa [Target.Stmt.returned] using settled)

mutual

theorem lowerStmtSettling (known : s.PromiseKnown) (place : Place) : (st : Stmt) →
    ScopedStmt s c outer st → (∀ e, some e ∈ Typing.returnsOf st → Awaited s e ∨ unpromised e = true) →
    Settling s c (fun _ => True) (lowerStmt place st)
  | .expr m e, _, _ => (exprStmtAdds silentAdmits place m e).quiet
  | .var _ kind declarations ambient, _, _ => by
    simp only [lowerStmt]
    cases ambient with
    | true => exact (Adds.pure _).quiet
    | false => exact (lowerDeclaratorsAdds silentAdmits _ declarations).quiet
  | .ret _ (some e), ruled, kinds => by
    simp only [ScopedStmt, lowerStmt] at ruled ⊢
    exact returnSettles known (kinds e (by simp [Typing.returnsOf])) ruled.1 ruled.2
  | .ret _ none, _, _ => by
    simp only [lowerStmt]
    exact pushSettling (by simp [Target.Stmt.returned, Target.Expr.settled])
  | .block (.mk _ ss), ruled, kinds => by
    simp only [ScopedStmt, lowerStmt, Typing.returnsOf] at ruled kinds ⊢
    refine (lowerDeclarationsAdds silentAdmits ss).quiet.bind known (lowerDeclarationsLays outer ss ruled) fun _ _ => ?_
    exact lowerStmtsSettling known .block ss ruled kinds
  | .cond _ test yes (some no), ruled, kinds => by
    simp only [ScopedStmt, lowerStmt, Typing.returnsOf, List.mem_append] at ruled kinds ⊢
    obtain ⟨typed, first, second, third⟩ := ruled
    refine (lowerExprAdds silentAdmits test).quiet.bind known (lowerExprLays outer test first) fun t _ => ?_
    refine (addsCompose.condition trivial t).quiet.bind known (conditionLays outer typed t) fun t _ => ?_
    have then' := suiteSettling (lowerStmtSettling known .branch yes second fun e member => kinds e (.inl member))
    refine then'.bind known (suiteLays (lowerStmtLays outer .branch yes second)) fun y settled => ?_
    have else' := suiteSettling (lowerStmtSettling known .branch no third fun e member => kinds e (.inr member))
    refine else'.bind known (suiteLays (lowerStmtLays outer .branch no third)) fun n others => ?_
    refine pushSettling fun e member => ?_
    simp only [Target.Stmt.returned, Target.returnedInOption, List.mem_append] at member
    exact member.elim (settled e) (others e)
  | .cond _ test yes none, ruled, kinds => by
    simp only [ScopedStmt, lowerStmt, Typing.returnsOf, List.append_nil] at ruled kinds ⊢
    obtain ⟨typed, first, second, -⟩ := ruled
    refine (lowerExprAdds silentAdmits test).quiet.bind known (lowerExprLays outer test first) fun t _ => ?_
    refine (addsCompose.condition trivial t).quiet.bind known (conditionLays outer typed t) fun t _ => ?_
    have then' := suiteSettling (lowerStmtSettling known .branch yes second kinds)
    refine then'.bind known (suiteLays (lowerStmtLays outer .branch yes second)) fun y settled => ?_
    exact pushSettling (by simpa [Target.Stmt.returned, Target.returnedInOption] using settled)
  | .loop _ test body, ruled, kinds => by
    simp only [ScopedStmt, lowerStmt, Typing.returnsOf] at ruled kinds ⊢
    obtain ⟨typed, first, second⟩ := ruled
    refine (lowerExprAdds silentAdmits test).quiet.bind known (lowerExprLays outer test first) fun t _ => ?_
    refine (addsCompose.condition trivial t).quiet.bind known (conditionLays outer typed t) fun t _ => ?_
    have round := suiteSettling (lowerStmtSettling known .branch body second kinds)
    refine round.bind known (suiteLays (lowerStmtLays outer .branch body second)) fun b settled => ?_
    exact pushSettling (by simpa [Target.Stmt.returned] using settled)
  | .brk _, _, _ | .cont _, _, _ => by
    simp only [lowerStmt]
    exact pushSettling (by simp [Target.Stmt.returned])
  | .function mark name params _ (some (.mk _ ss)) isAsync _, _, _ => by
    simp only [lowerStmt]
    split
    · refine Adds.quiet ((functionStartAdds mark name params).bind fun r => ?_)
      exact (functionBodyAdds isAsync _).bind fun _ => pushAdds (silentAdmits.define _ _ _ _)
    · exact (Adds.pure _).quiet
  | .enum mark _ _ isConst ambient, _, _ => by
    simp only [lowerStmt]
    split
    · exact (Adds.pure _).quiet
    · exact (enumLineAdds silentAdmits mark).quiet
  | .empty .., _, _ | .function _ _ _ _ none _ _, _, _ | .typeAlias .., _, _ | .interface .., _, _ | .classDecl .., _, _
  | .importDecl .., _, _ => by
    simp only [lowerStmt]
    exact (Adds.pure _).quiet

theorem lowerStmtsSettling (known : s.PromiseKnown) (place : Place) : (ss : List Stmt) →
    ScopedStmts s c outer ss → (∀ e, some e ∈ Typing.returnsOfAll ss → Awaited s e ∨ unpromised e = true) →
    Settling s c (fun _ => True) (lowerStmts place ss)
  | [], _, _ => by
    simp only [lowerStmts]
    exact (Adds.pure _).quiet
  | st :: ss, ruled, kinds => by
    simp only [ScopedStmts, lowerStmts, Typing.returnsOfAll, List.mem_append] at ruled kinds ⊢
    have first := lowerStmtSettling known place st ruled.1 fun e member => kinds e (.inl member)
    refine first.bind known (lowerStmtLays outer place st ruled.1) fun _ _ => ?_
    exact lowerStmtsSettling known place ss ruled.2 fun e member => kinds e (.inr member)

end

end Settling

/-! Async functions -/

/-- The expressions that a function returns. -/
def returnedBy : Body → List Expr
  | .block (.mk _ ss) => (Typing.returnsOfAll ss).reduceOption
  | .expr e => [e]

section Functions

variable {s : State} {c : Context} {outer : List SymbolId} {params : List Param} {made : List Target.Param}

theorem lowerBodySettling (body : Body) (ruled : ScopedBody s c outer params true body)
    (kinds : ∀ e ∈ returnedBy body, Awaited s e ∨ unpromised e = true) :
    Settling s c (fun _ => True) (lowerBody made (symbolsOf s (params.map (·.mark))) body) := by
  cases body with
  | block b =>
    obtain ⟨mark, ss⟩ := b
    simp only [ScopedBody, ScopedBlock, lowerBody] at ruled ⊢
    obtain ⟨rules, ruled⟩ := ruled
    have known := rules.awaits rfl
    have opens : Opens s c outer (symbolsOf s (params.map (·.mark) ++ declaredInAll ss)) [] _ _ :=
      blockStartOpens rules made
    have start := blockStartAdds silentAdmits (fun _ => rfl) (fun _ => rfl) (fun _ => rfl) made
      (symbolsOf s (params.map (·.mark))) ss
    refine start.quiet.bind known opens fun _ _ => ?_
    refine (lowerDeclarationsAdds silentAdmits ss).quiet.bind known (lowerDeclarationsLays _ ss ruled) fun _ _ => ?_
    refine lowerStmtsSettling known .block ss ruled fun e member => kinds e ?_
    simpa [returnedBy, List.reduceOption_mem_iff] using member
  | expr e =>
    simp only [ScopedBody, lowerBody] at ruled ⊢
    obtain ⟨rules, typed, ruled⟩ := ruled
    have known := rules.awaits rfl
    have kind := kinds e (by simp [returnedBy])
    have assigned := rules.assigned
    rw [List.append_nil] at assigned
    have lines : Steps s c (fun _ xs n => Opened c n outer _ [] [] xs) _ := bindingLinesSteps assigned
    have array : Lays s c outer [] (collectLine made) := collectLineLays made
    refine (bindingLinesAdds (fun _ => rfl) (fun _ => rfl) _ _).quiet.bind known lines fun _ _ => ?_
    refine (collectLineAdds (fun _ => rfl) made).quiet.bind known array fun _ _ => ?_
    exact returnSettles known kind typed ruled

/-- A call of an async function gives a promise of its code. If the function returns only expressions of type any, of
promise types, or of a form that gives no promise, then awaiting such a promise once gives no promise, whenever it is
done. -/
theorem asyncResultUnpromised {body : Body} {p q : Progress} {code : List Target.Stmt}
    (ruled : ScopedBody s c outer params true body) (kinds : ∀ e ∈ returnedBy body, Awaited s e ∨ unpromised e = true)
    (typing : p.typing = s) (distinct : Distinct c p.names)
    (run : functionBody true (lowerBody made (symbolsOf s (params.map (·.mark))) body) c p = .ok (code, q)) :
    (∀ {fuel ref : Nat} {args : List Value} {names : List String} {around : List Target.Scope} {v : Value} {w u : Target.World},
      w.functions[ref]? = some (.closure true made names code around) →
      Target.call fuel (.function ref) args w = .ok v u →
      ∃ promise scopes, v = .promise promise ∧ u.promises[promise]? = some (.ready code scopes)) ∧
    ∀ {promise : Nat} {scopes : List Target.Scope} {v : Value} {w u : Target.World},
      w.promises[promise]? = some (.ready code scopes) →
      Target.awaitOnce (.promise promise) w = .ok v u → v.isPromise = false := by
  have settled := suiteReturns (lowerBodySettling body ruled kinds) typing distinct run
  exact ⟨Target.asyncCallWaits, Target.settledPromise settled⟩

end Functions

/-! A parameter of a promise type, and one that may be a promise -/

def promiseTyping (parameter : Typing.TypeId) : State :=
  { State.initial with
    types := Typing.initialTypes ++ #[
      { flags := TypeFlags.object, form := .interface [Typing.anyType] },
      { flags := TypeFlags.object, form := .reference 12 [Typing.numberType] },
      { flags := TypeFlags.union, form := .union [Typing.numberType, 13] }]
    symbols := State.initial.symbols ++ #[
      { flags := Typing.SymbolFlags.interface, name := "Promise", declaredType := some 12 },
      { flags := Typing.SymbolFlags.functionVariable, name := "p", type := some parameter }]
    scopes := #[{ parent := none, names := (({} : Std.HashMap String SymbolId).insert "undefined" 0).insert "Promise" 1 }]
    symbolOf := ({} : Std.HashMap Nat SymbolId).insert 1 2
    resolvedSymbols := ({} : Std.HashMap Nat SymbolId).insert 2 2
    nodeTypes := ({} : Std.HashMap Nat Typing.TypeId).insert 2 parameter }

def promiseParam : Param := .mk (plainMark 1) "p" none false false

def promiseBody : Body := .expr (.ident (plainMark 2) "p")

def promiseContext : Context := { kind := .script, librarySymbols := [], moduleSymbols := [] }

def promiseStart (parameter : Typing.TypeId) : Progress :=
  { typing := promiseTyping parameter, names := { used := ["p"], symbols := [(2, "p")] } }

/-- The body of `async (p) => p` has one line, the one that returns. -/
theorem promiseBodyRun (parameter : Typing.TypeId) {value : Target.Expr}
    (returned : ∀ made, returnExpr (.ident (plainMark 2) "p") (.name "p") { promiseContext with isAsync := true }
      { promiseStart parameter with made } = .ok (value, { promiseStart parameter with made })) :
    functionBody true (lowerBody [⟨"p", .required⟩] (symbolsOf (promiseTyping parameter) ([promiseParam].map (·.mark)))
      promiseBody) promiseContext (promiseStart parameter) = .ok ([.ret value], promiseStart parameter) := by
  have means : symbolAt (promiseTyping parameter) (plainMark 2) = some 2 := by simp [symbolAt, promiseTyping, plainMark]
  have asked (made : Array Target.Stmt) : ask (Typing.Check.symbolAt? (plainMark 2)) { promiseContext with isAsync := true }
      { promiseStart parameter with made } = .ok (some 2, { promiseStart parameter with made }) := by
    change Except.ok (symbolAt (promiseTyping parameter) (plainMark 2), _) = _
    rw [means]
  have value (made : Array Target.Stmt) : lowerExpr (.ident (plainMark 2) "p") { promiseContext with isAsync := true }
      { promiseStart parameter with made } = .ok (.name "p", { promiseStart parameter with made }) := by
    simp only [lowerExpr, nameExpr, bindRun, asked]
    rfl
  have lines (own : List SymbolId) (p : Progress) :
      bindingLines [] own { promiseContext with isAsync := true } p = .ok ((), p) := rfl
  have rest (p : Progress) : collectLine [⟨"p", .required⟩] { promiseContext with isAsync := true } p = .ok ((), p) := rfl
  change suite _ { promiseContext with isAsync := true } _ = _
  simp only [suite, bindRun, collectedRun, lowerBody, promiseBody, assignedIn, lines, rest, value, returned]
  rfl

theorem promiseRead (parameter : Typing.TypeId) :
    (promiseTyping parameter).nodeTypes[(Expr.ident (plainMark 2) "p").mark.id]? = some parameter := by
  unfold Expr.mark
  simp [promiseTyping, plainMark]

theorem promiseDistinct (parameter : Typing.TypeId) : Distinct promiseContext (promiseStart parameter).names := by
  refine ⟨by simp [promiseContext], by simp [promiseContext], by simp [promiseContext, promiseStart], ?_⟩
  simp [promiseStart]

theorem promiseGlobal (parameter : Typing.TypeId) :
    ((promiseTyping parameter).scopes[Typing.globalScope]?).bind (·.names["Promise"]?) = some 1 := by
  simp [promiseTyping, Typing.globalScope]

/-- What the checker says a type promises. -/
theorem promisedReads (parameter t : Typing.TypeId) : Typing.Reads (promiseTyping parameter) (1 ≤ Typing.depthLimit)
    (Typing.answers.promised t) (match ((promiseTyping parameter).typeInfo t).form with
      | .reference target args => if target = 12 then args.head? else none
      | _ => none) := by
  have lookup : Typing.Reads (promiseTyping parameter) (1 ≤ Typing.depthLimit)
      (Typing.Queries.globalType.lookupGlobal "Promise") (some 1) := by
    intro kept opened
    refine .inl ?_
    change Except.ok (((promiseTyping parameter).scopes[Typing.globalScope]?).bind (·.names["Promise"]?), _) = _
    rw [promiseGlobal]
  have declared : Typing.Reads (promiseTyping parameter) (1 ≤ Typing.depthLimit) (Typing.answers.declaredType 1) 12 :=
    Typing.readsDeclared (x := 1) rfl
  have isInterface : ((promiseTyping parameter).symbol 1).flags.meets Typing.SymbolFlags.interface = true := by
    change Typing.SymbolFlags.interface.meets Typing.SymbolFlags.interface = true
    decide
  have promise : Typing.Reads (promiseTyping parameter) (1 ≤ Typing.depthLimit) Typing.answers.promiseType (some 12) := by
    refine lookup.bind ((Typing.readsSymbol _ 1).bind ?_)
    simp only [isInterface, Bool.not_true, Bool.false_eq_true, ↓reduceIte]
    exact declared.bind ((Typing.readsForm _ 12).bind (Typing.Reads.pure _))
  refine promise.bind ((Typing.readsForm _ t).bind ?_)
  cases ((promiseTyping parameter).typeInfo t).form <;> exact Typing.Reads.pure _

theorem promiseAwaited : Awaited (promiseTyping 13) (.ident (plainMark 2) "p") :=
  ⟨13, promiseRead 13, .inr ⟨Typing.numberType, (promisedReads 13 13).known (by decide)⟩⟩

theorem promiseRuled : ScopedBody (promiseTyping 13) promiseContext [] [promiseParam] true promiseBody := by
  have known : (promiseTyping 13).PromiseKnown := by
    intro x found _
    cases (promiseGlobal 13).symm.trans found
    rfl
  have rules : Rules (promiseTyping 13) promiseContext [] [promiseParam] true [] [] :=
    ⟨rfl, by simp [foreignSymbols], fun _ => known⟩
  simp only [promiseBody, ScopedBody, ScopedExpr]
  exact ⟨rules, by simp [Typed, promiseRead], trivial⟩

/-- A parameter of a promise type is awaited when it is returned. -/
theorem promiseParameterAwaited : ∃ code q,
    functionBody true (lowerBody [⟨"p", .required⟩] (symbolsOf (promiseTyping 13) ([promiseParam].map (·.mark)))
      promiseBody) promiseContext (promiseStart 13) = .ok (code, q) ∧
    ∀ {promise : Nat} {scopes : List Target.Scope} {v : Value} {w u : Target.World},
      w.promises[promise]? = some (.ready code scopes) →
      Target.awaitOnce (.promise promise) w = .ok v u → v.isPromise = false := by
  have made := promiseBodyRun 13 fun made =>
    awaitedReturn (p := { promiseStart 13 with made }) promiseAwaited (.name "p")
  exact ⟨_, _, made, (asyncResultUnpromised promiseRuled (by simpa [returnedBy, promiseBody] using .inl promiseAwaited) rfl
    (promiseDistinct 13) made).2⟩

/-- A parameter that is a number or a promise is returned as it is, so a call with a promise resolves to it. -/
theorem unionParameterPromised : ∃ code q,
    functionBody true (lowerBody [⟨"p", .required⟩] (symbolsOf (promiseTyping 14) ([promiseParam].map (·.mark)))
      promiseBody) promiseContext (promiseStart 14) = .ok (code, q) ∧
    ∃ w u, w.functions[(0 : Nat)]? = some (.closure true [⟨"p", .required⟩] ["p"] code []) ∧
      w.promises[(0 : Nat)]? = some (.ready [] []) ∧
      Target.callFromOutside (.function 0) [.promise 0] w = .ok (.promise 0) u := by
  have union (made : Array Target.Stmt) :
      returnExpr (.ident (plainMark 2) "p") (.name "p") { promiseContext with isAsync := true }
        { promiseStart 14 with made } = .ok (.name "p", { promiseStart 14 with made }) := by
    have flag : ask (Typing.Check.hasFlag 14 TypeFlags.any) { promiseContext with isAsync := true }
        { promiseStart 14 with made } = .ok (((promiseTyping 14).typeInfo 14).flags.meets TypeFlags.any,
          { promiseStart 14 with made }) := askKnown rfl
    have other : ((promiseTyping 14).typeInfo 14).flags.meets TypeFlags.any = false := rfl
    have asked : ask (Typing.answers.promised 14) { promiseContext with isAsync := true }
        { promiseStart 14 with made } = .ok (none, { promiseStart 14 with made }) :=
      askKnown ((promisedReads 14 14).known (by decide))
    have typed := typeOfKnown (c := { promiseContext with isAsync := true }) (p := { promiseStart 14 with made })
      (promiseRead 14)
    simp only [returnExpr, bindRun, readRun, Bool.not_true, Bool.false_eq_true, if_false, typed, flag, other,
      asked, Option.isSome_none]
    rfl
  let w : Target.World :=
    { functions := #[.closure true [⟨"p", .required⟩] ["p"] [.ret (.name "p")] []], promises := #[.ready [] []] }
  exact ⟨_, _, promiseBodyRun 14 union, w, _, rfl, rfl, rfl⟩

end Fragment.Emit
