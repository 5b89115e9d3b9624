import Fragment.Proofs.AsyncResults

/-! How code ends.
Whether control can pass the end of some statements is told by their form: a loop whose test is literally true is left
by a break only. That is true of the code that is made of them, in whatever world it runs and whatever its tests
give. So a function that returns a value somewhere and whose check finds no path without one always gives the value of
an expression that it returns. -/
namespace Fragment

namespace Target

/-- The ways in which code may end, apart from a return. -/
structure Exits where
  next : Bool
  brk : Bool
  cont : Bool

def Exits.allow (e : Exits) : Flow → Prop
  | .next => e.next = true
  | .brk => e.brk = true
  | .cont => e.cont = true
  | .ret _ => True

/-- One thing after the other. -/
def Exits.then (a b : Exits) : Exits := ⟨a.next && b.next, a.brk || b.brk, a.cont || b.cont⟩

/-- One thing or the other. -/
def Exits.or (a b : Exits) : Exits := ⟨a.next || b.next, a.brk || b.brk, a.cont || b.cont⟩

/-- Code that passes to what follows. -/
def Exits.pass : Exits := ⟨true, false, false⟩

/-- Code that ends by a return, if it ends. -/
def Exits.none : Exits := ⟨false, false, false⟩

theorem onlyReturns {flow : Flow} (allowed : Exits.none.allow flow) : ∃ v, flow = .ret v := by
  cases flow with
  | ret v => exact ⟨v, rfl⟩
  | next | brk | cont => cases allowed

/-- Code that ends in the allowed ways only, wherever it runs. -/
def Leaves (e : Exits) (code : List Stmt) : Prop :=
  ∀ (o : Outside) (fuel : Nat) (scopes : List Scope), Gives e.allow (execAll o fuel scopes code)

/-- A test that can only hold. -/
def Sure (test : Expr) : Prop :=
  ∀ (o : Outside) (scopes : List Scope), Gives (fun v => v = .bool true) (eval o scopes test)

theorem sureTruth : Sure (.bool true) := fun _ _ => .pure rfl

theorem sureTruthy : Sure (.helper .truthy [.bool true]) := by
  intro o scopes w v u run
  cases run
  rfl

section Leaves

variable {a b : Exits} {xs ys : List Stmt}

theorem allowThen {flow : Flow} (ended : flow ≠ .next) (allowed : a.allow flow) : (a.then b).allow flow := by
  cases flow <;> simp_all [Exits.allow, Exits.then]

theorem allowAfter {flow : Flow} (passed : a.next = true) (allowed : b.allow flow) : (a.then b).allow flow := by
  cases flow <;> simp_all [Exits.allow, Exits.then]

theorem leavesNothing : Leaves .pass [] := fun _ _ _ => .pure rfl

/-- Statements run one after the other until one of them leaves. -/
theorem appendEnds {o : Outside} {fuel : Nat} {scopes : List Scope} {flow : Flow} {w u : World}
    (run : execAll o fuel scopes (xs ++ ys) w = .ok flow u) :
    ∃ first v, execAll o fuel scopes xs w = .ok first v ∧
      (first = .next ∧ execAll o fuel scopes ys v = .ok flow u ∨ first ≠ .next ∧ flow = first) := by
  induction xs generalizing w with
  | nil => exact ⟨.next, w, rfl, .inl ⟨rfl, run⟩⟩
  | cons x xs ih =>
    obtain ⟨f, v, ended, run⟩ := bindEnds run
    cases f with
    | next =>
      have step : execAll o fuel scopes (x :: xs) w = execAll o fuel scopes xs v := bindRuns ended
      obtain ⟨first, v', ended, rest⟩ := ih run
      exact ⟨first, v', step.trans ended, rest⟩
    | brk | cont | ret =>
      cases run
      exact ⟨_, _, bindRuns ended, .inr ⟨nofun, rfl⟩⟩

theorem Leaves.append (first : Leaves a xs) (second : Leaves b ys) : Leaves (a.then b) (xs ++ ys) := by
  intro o fuel scopes w flow u run
  obtain ⟨f, v, ended, rest⟩ := appendEnds run
  have allowed := first o fuel scopes w f v ended
  rcases rest with ⟨rfl, run⟩ | ⟨left, rfl⟩
  · exact allowAfter allowed (second o fuel scopes v flow u run)
  · exact allowThen left allowed

theorem leavesOne {x : Stmt} (alone : ∀ o fuel scopes, Gives a.allow (exec o fuel scopes x)) : Leaves a [x] := by
  intro o fuel scopes
  refine Gives.bind (alone o fuel scopes) fun flow allowed => ?_
  cases flow <;> exact .pure allowed

/-- A statement that is no jump and has no statements in it. -/
def Stmt.plain : Stmt → Bool
  | .ret _ | .cond .. | .loop .. | .brk | .cont => false
  | _ => true

theorem plainPasses {x : Stmt} (plain : x.plain = true) : Leaves .pass [x] := by
  refine leavesOne fun o fuel scopes => ?_
  cases x with
  | assign | define => exact Gives.last fun _ => Gives.last fun _ => .pure rfl
  | expr => exact Gives.last fun _ => .pure rfl
  | pass | globals | nonlocals => exact .pure rfl
  | collect =>
    refine Gives.last fun v => ?_
    split
    · exact Gives.last fun _ => Gives.last fun _ => Gives.last fun _ => .pure rfl
    · exact Gives.last fun _ => .pure rfl
  | ret | cond | loop | brk | cont => cases plain

theorem plainAllPass {xs : List Stmt} (plain : ∀ x ∈ xs, x.plain = true) : Leaves .pass xs := by
  induction xs with
  | nil => exact leavesNothing
  | cons x xs ih =>
    rw [List.forall_mem_cons] at plain
    exact (plainPasses plain.1).append (ih plain.2)

theorem orLeft {flow : Flow} (allowed : a.allow flow) : (a.or b).allow flow := by
  cases flow <;> simp_all [Exits.allow, Exits.or]

theorem orRight {flow : Flow} (allowed : b.allow flow) : (a.or b).allow flow := by
  cases flow <;> simp_all [Exits.allow, Exits.or]

theorem leavesCond {test : Expr} (yes : Leaves a xs) (no : Leaves b ys) : Leaves (a.or b) [.cond test xs (some ys)] := by
  refine leavesOne fun o fuel scopes => Gives.last fun v => Gives.last fun s => ?_
  split
  · exact fun w flow u run => orLeft (yes o fuel scopes w flow u run)
  · exact fun w flow u run => orRight (no o fuel scopes w flow u run)

theorem leavesCondAlone {test : Expr} (yes : Leaves a xs) : Leaves (a.or .pass) [.cond test xs none] := by
  refine leavesOne fun o fuel scopes => Gives.last fun v => Gives.last fun s => ?_
  split
  · exact fun w flow u run => orLeft (yes o fuel scopes w flow u run)
  · exact .pure (orRight (b := .pass) rfl)

/-- Each round of a loop ends it, or goes on to the next one; a test that can only hold never ends it. -/
theorem repeatLeaves {endless : Bool} {test : Run Bool} {body : Run Flow} (sure : endless = true → Gives (· = true) test)
    (round : Gives a.allow body) (fuel : Nat) :
    Gives (Exits.allow ⟨!endless || a.brk, false, false⟩) (repeatWhile test body fuel) := by
  induction fuel with
  | zero => exact .throw _
  | succ fuel ih =>
    have tested : Gives (fun holds => holds = true ∨ endless = false) test := by
      intro w holds u run
      cases endless with
      | true => exact .inl (sure rfl w holds u run)
      | false => exact .inr rfl
    refine tested.bind fun holds kind => ?_
    split
    next =>
      refine round.bind fun flow allowed => ?_
      split
      · unfold Exits.allow
        exact .pure (by simp [show a.brk = true from allowed])
      · exact .pure trivial
      · exact ih
    unfold Exits.allow
    next fails => exact .pure (by simp [kind.resolve_left fails])

theorem leavesLoop {test : Expr} {endless : Bool} (sure : endless = true → Sure test) (round : Leaves a xs) :
    Leaves ⟨!endless || a.brk, false, false⟩ [.loop test xs] := by
  refine leavesOne fun o fuel scopes => repeatLeaves (fun holds => ?_) (round o fuel scopes) fuel
  refine (sure holds o scopes).bind fun v same => Gives.last fun s => .pure ?_
  rw [same]
  rfl

/-- A body that is left by returns only gives the value of an expression that it returns. -/
theorem bodyReturns {o : Outside} {fuel : Nat} {scopes : List Scope} {code : List Stmt} {w u : World} {v : Value}
    (leaves : Leaves .none code) (run : runBody o fuel code scopes w = .ok v u) :
    ∃ e ∈ returnedIn code, ∃ w' u', eval o scopes e w' = .ok v u' := by
  have body : Gives (fun flow => ∃ v, flow = .ret v ∧ ∃ e ∈ returnedIn code, ∃ w' u', eval o scopes e w' = .ok v u')
      (execAll o fuel scopes code) := by
    intro w flow u run
    obtain ⟨v, rfl⟩ := onlyReturns (leaves o fuel scopes w flow u run)
    have returns : Returns (fun v => ∃ e ∈ returnedIn code, ∃ w' u', eval o scopes e w' = .ok v u')
        (execAll o fuel scopes code) :=
      execAllReturns o scopes fuel code fun e member w v u run => ⟨e, member, w, u, run⟩
    exact ⟨v, rfl, returns w _ u run v rfl⟩
  have whole : Gives (fun v => ∃ e ∈ returnedIn code, ∃ w' u', eval o scopes e w' = .ok v u')
      (runBody o fuel code scopes) := by
    refine Gives.last fun w => ?_
    dsimp only
    split
    · exact Gives.bind (Q := fun _ => False) (.throw _) nofun
    · refine Gives.last fun _ => body.bind fun flow returned => Gives.last fun _ => ?_
      obtain ⟨v, rfl, valued⟩ := returned
      exact .pure valued
  exact whole w v u run

end Leaves

end Target

namespace Typing

open Source (Stmt)

mutual

/-- Whether a statement holds a `continue` of the loop around it. -/
def containsContinue : Stmt → Bool
  | .cont _ => true
  | .block (.mk _ ss) => anyContainsContinue ss
  | .cond _ _ thenBranch otherwise => containsContinue thenBranch || (match otherwise with
    | some s => containsContinue s
    | none => false)
  | _ => false

def anyContainsContinue : List Stmt → Bool
  | [] => false
  | s :: ss => containsContinue s || anyContainsContinue ss

end

/-- The ways in which a statement may end, as its form tells. -/
def exitsOf (s : Stmt) : Target.Exits := ⟨completes s, containsBreak s, containsContinue s⟩

def exitsOfAll (ss : List Stmt) : Target.Exits :=
  ⟨endReachable ss, anyContainsBreak ss, anyContainsContinue ss⟩

open Check

/-- Whether something has been reported about a node. -/
def State.Reported (s : State) (mark : Source.Mark) (m : Message) : Prop :=
  ∃ d ∈ s.diagnostics.getD ((s.fileOf[mark.id]?).getD "") [],
    d.code = some m.code ∧ d.span = Span.ofExtent s.fileOf[mark.id]? mark.extent

theorem errorReports {mark : Source.Mark} {m : Message} {s s' : State} (run : (error mark m).run s = .ok ((), s')) :
    s'.Reported mark m := by
  let d : Diagnostic :=
    { message := m.text, code := some m.code, phase := some "typecheck",
      span := Span.ofExtent s.fileOf[mark.id]? mark.extent }
  cases run
  refine ⟨d, ?_, rfl, rfl⟩
  rw [Std.HashMap.getD_insert_self]
  exact List.mem_append_right _ (List.mem_singleton_self d)

/-- Without a report, a function that has no annotation returns a value on all of its paths or on none. -/
theorem pathsReturn {q : Queries} {f : FunctionNode} {b : Source.Block} {s s' : State} (unannotated : f.result = none)
    (body : f.body = .block b) (checked : (q.checkContent f).run s = .ok ((), s'))
    (quiet : ¬ s'.Reported f.mark .notAllPathsReturn) {e : Source.Expr} (returns : some e ∈ returnsOfAll b.statements) :
    endReachable b.statements = false ∧ none ∉ returnsOfAll b.statements := by
  simp only [Queries.checkContent, body, StateT.run_bind] at checked
  cases first : (q.checkStatements b.statements).run s with
  | error fault =>
    rw [first] at checked
    cases checked
  | ok result =>
    rw [first] at checked
    have value : (returnsOfAll b.statements).any (·.isSome) = true := List.any_eq_true.mpr ⟨some e, returns, rfl⟩
    simp only [bind, Except.bind, Queries.checkPaths, unannotated, value, Bool.true_and] at checked
    split at checked
    · exact absurd (errorReports checked) quiet
    next complete =>
      simp only [Bool.or_eq_true, not_or, Bool.not_eq_true, List.any_eq_false] at complete
      exact ⟨complete.1, fun bare => by simpa using complete.2 none bare⟩

end Typing

namespace Emit

open Source (Mark Expr Property Param Body Block Stmt VarDeclarator)
open Typing (SymbolId State TypeFlags exitsOf exitsOfAll returnsOf returnsOfAll)
open Target (Leaves Exits Sure returnedIn)
open Lowering

/-- The code of a returned expression, or that of a return without one. -/
def ReturnCode (c : Context) : Option Expr → Target.Expr → Prop
  | none, code => code = .none
  | some e, code => ∃ p v q r, lowerExpr e c p = .ok (v, q) ∧ returnExpr e v c q = .ok (code, r)

/-- What stands in some code: how it ends, and whose code it returns. -/
structure Ended (c : Context) (exits : Exits) (values : List (Option Expr)) (code : List Target.Stmt) : Prop where
  leaves : Leaves exits code
  returns : ∀ e ∈ returnedIn code, ∃ value ∈ values, ReturnCode c value e

/-- A step that adds such code. -/
def Ends {α : Type} (c : Context) (exits : Exits) (values : List (Option Expr)) (act : Lowering α) : Prop :=
  ∀ p a q, act c p = .ok (a, q) → ∃ added, q.made.toList = p.made.toList ++ added ∧ Ended c exits values added

section Ends

variable {α β : Type} {c : Context} {a b : Exits} {values more : List (Option Expr)} {m : Lowering α}
  {k : α → Lowering β} {xs ys : List Target.Stmt}

theorem Ended.append (first : Ended c a values xs) (second : Ended c b more ys) :
    Ended c (a.then b) (values ++ more) (xs ++ ys) := by
  refine ⟨first.leaves.append second.leaves, fun e member => ?_⟩
  rw [returnedAppend, List.mem_append] at member
  rcases member with member | member
  · obtain ⟨value, there, code⟩ := first.returns e member
    exact ⟨value, List.mem_append_left _ there, code⟩
  · obtain ⟨value, there, code⟩ := second.returns e member
    exact ⟨value, List.mem_append_right _ there, code⟩

theorem Ends.bind (first : Ends c a values m) (rest : ∀ r, Ends c b more (k r)) :
    Ends c (a.then b) (values ++ more) (m >>= k) := by
  intro p r q run
  obtain ⟨r', p', ended, run⟩ := bindOk run
  obtain ⟨xs, made, holds⟩ := first p r' p' ended
  obtain ⟨ys, made', holds'⟩ := rest r' p' r q run
  exact ⟨xs ++ ys, by rw [made', made, List.append_assoc], holds.append holds'⟩

/-- Statements without jumps, and without statements in them. -/
def Straight (x : Target.Stmt) : Prop := x.plain = true

theorem straightAdmits : Admits Straight := ⟨fun _ _ _ _ => rfl, fun _ _ => rfl, fun _ => rfl⟩

theorem straightEnded {xs : List Target.Stmt} (plain : ∀ x ∈ xs, Straight x) : Ended c .pass [] xs := by
  have silent : ∀ x ∈ xs, Silent x := by
    intro x member
    have := plain x member
    cases x <;> first | rfl | cases this
  refine ⟨Target.plainAllPass plain, fun e member => ?_⟩
  rw [silentReturns silent] at member
  cases member

theorem Adds.ends (plain : Adds Straight m) : Ends c .pass [] m := by
  intro p r q run
  obtain ⟨xs, made, all⟩ := plain c p r q run
  exact ⟨xs, made, straightEnded all⟩

/-- What follows such statements decides, and may count on what they were added for. -/
theorem Adds.beforeKnowing {P : α → Prop} (plain : Adds Straight m) (results : Results P m)
    (rest : ∀ r, P r → Ends c b more (k r)) : Ends c b more (m >>= k) := by
  intro p r q run
  obtain ⟨r', p', ended, run⟩ := bindOk run
  obtain ⟨xs, made, all⟩ := plain c p r' p' ended
  obtain ⟨ys, made', done⟩ := rest r' (results c p r' p' ended) p' r q run
  refine ⟨xs ++ ys, by rw [made', made, List.append_assoc], ?_⟩
  have both : Ended c (Exits.pass.then b) ([] ++ more) (xs ++ ys) := (straightEnded all).append done
  exact both

theorem Adds.before (plain : Adds Straight m) (rest : ∀ r, Ends c b more (k r)) : Ends c b more (m >>= k) :=
  plain.beforeKnowing (P := fun _ => True) (fun _ _ _ _ _ => trivial) fun r _ => rest r

/-- The statements of a step, made apart. -/
def Holds (c : Context) (exits : Exits) (values : List (Option Expr)) (act : Lowering (List Target.Stmt)) : Prop :=
  ∀ p code q, act c p = .ok (code, q) → Ended c exits values code

theorem suiteHolds {act : Lowering Unit} (h : Ends c a values act) : Holds c a values (suite act) := by
  intro p code q run
  obtain ⟨inside, r, collected, run⟩ := bindOk run
  rw [collectedRun] at collected
  split at collected
  case h_2 => cases collected
  case h_1 r' ended =>
    obtain ⟨added, made, holds⟩ := h _ _ _ ended
    simp only [Except.ok.injEq, Prod.mk.injEq] at collected
    rw [made] at collected
    obtain rfl : added = inside := by simpa using collected.1
    cases added with
    | cons x xs =>
      cases run
      exact holds
    | nil =>
      cases run
      refine ⟨fun o fuel scopes w flow u run => ?_, nofun⟩
      exact holds.leaves o fuel scopes w flow u run

/-- A branch or a body, and the statement that it is put into. -/
theorem Holds.ends {act : Lowering (List Target.Stmt)} (holds : Holds c a values act) (silent : Adds Straight act)
    {k : List Target.Stmt → Lowering β} (rest : ∀ code, Ended c a values code → Ends c b more (k code)) :
    Ends c b more (act >>= k) := by
  intro p r q run
  obtain ⟨code, p', ended, run⟩ := bindOk run
  obtain ⟨xs, made, plain⟩ := silent c p code p' ended
  obtain ⟨ys, made', done⟩ := rest code (holds p code p' ended) p' r q run
  refine ⟨xs ++ ys, by rw [made', made, List.append_assoc], ?_⟩
  have all := (straightEnded (c := c) plain).append done
  exact all

theorem pushEnds {x : Target.Stmt} (holds : Ended c a values [x]) : Ends c a values (push x) := by
  intro p r q run
  cases run
  exact ⟨[x], by simp, holds⟩

/-! Statements -/

/-- The code of the test of a loop can only hold if the test is literally true. -/
theorem testSure {test : Expr} (literal : Typing.isLiteralTrue test = true) :
    Results Sure (lowerExpr test >>= condition test) := by
  cases test with
  | boolean mark b =>
    obtain rfl : b = true := literal
    simp only [lowerExpr, pure_bind]
    refine Results.last fun t => Results.last fun bools => ?_
    split
    · exact .pure Target.sureTruth
    · exact .pure Target.sureTruthy
  | _ => cases literal

theorem returnEnds (e : Expr) :
    Ends c .none [some e] (lowerExpr e >>= fun v => returnExpr e v >>= fun v => push (.ret v)) := by
  intro p r q run
  obtain ⟨v, p', lowered, run⟩ := bindOk run
  obtain ⟨code, p'', returned, run⟩ := bindOk run
  obtain ⟨xs, made, plain⟩ := lowerExprAdds straightAdmits e c p v p' lowered
  have returns : Adds Straight (returnExpr e v) := returnAdds e v
  obtain ⟨ys, made', plain'⟩ := returns c p' code p'' returned
  have last : Ended c .none [some e] [.ret code] := by
    refine ⟨Target.leavesOne fun o fuel scopes => Target.Gives.last fun v => .pure trivial, fun e' member => ?_⟩
    obtain rfl : e' = code := by simpa [returnedIn, Target.Stmt.returned] using member
    exact ⟨some e, by simp, p, v, p', p'', lowered, returned⟩
  obtain ⟨zs, made'', done⟩ := pushEnds last p'' r q run
  refine ⟨xs ++ (ys ++ zs), by simp [made, made', made''], ?_⟩
  have all := (straightEnded (c := c) plain).append ((straightEnded plain').append done)
  exact all

theorem condEnds {test : Target.Expr} (yes : Ended c a values xs) (no : Ended c b more ys) :
    Ended c (a.or b) (values ++ more) [.cond test xs (some ys)] := by
  refine ⟨Target.leavesCond yes.leaves no.leaves, fun e member => ?_⟩
  have member : e ∈ returnedIn xs ∨ e ∈ returnedIn ys := by
    simpa [returnedIn, Target.Stmt.returned, Target.returnedInOption] using member
  rcases member with member | member
  · obtain ⟨value, there, code⟩ := yes.returns e member
    exact ⟨value, List.mem_append_left _ there, code⟩
  · obtain ⟨value, there, code⟩ := no.returns e member
    exact ⟨value, List.mem_append_right _ there, code⟩

theorem condAloneEnds {test : Target.Expr} (yes : Ended c a values xs) :
    Ended c (a.or .pass) values [.cond test xs none] := by
  refine ⟨Target.leavesCondAlone yes.leaves, fun e member => yes.returns e ?_⟩
  simpa [returnedIn, Target.Stmt.returned, Target.returnedInOption] using member

theorem loopEnds {test : Target.Expr} {endless : Bool} (sure : endless = true → Sure test) (round : Ended c a values xs) :
    Ended c ⟨!endless || a.brk, false, false⟩ values [.loop test xs] := by
  refine ⟨Target.leavesLoop sure round.leaves, fun e member => round.returns e ?_⟩
  simpa [returnedIn, Target.Stmt.returned] using member

mutual

theorem lowerStmtEnds (place : Place) : (st : Stmt) → Ends c (exitsOf st) (returnsOf st) (lowerStmt place st)
  | .expr m e => (exprStmtAdds straightAdmits place m e).ends
  | .var _ kind declarations ambient => by
    simp only [lowerStmt]
    cases ambient with
    | true => exact (Adds.pure _).ends
    | false => exact (lowerDeclaratorsAdds straightAdmits _ declarations).ends
  | .ret _ (some e) => by
    simp only [lowerStmt]
    exact returnEnds e
  | .ret _ none => by
    simp only [lowerStmt]
    refine pushEnds ⟨Target.leavesOne fun o fuel scopes => Target.Gives.last fun v => .pure trivial, fun e member => ?_⟩
    exact ⟨none, by simp [returnsOf], by simpa [returnedIn, Target.Stmt.returned, ReturnCode] using member⟩
  | .block (.mk _ ss) => by
    simp only [lowerStmt]
    exact (lowerDeclarationsAdds straightAdmits ss).before fun _ => lowerStmtsEnds .block ss
  | .cond _ test yes (some no) => by
    simp only [lowerStmt]
    refine (lowerExprAdds straightAdmits test).before fun t => (addsCompose.condition trivial t).before fun t => ?_
    refine (suiteHolds (lowerStmtEnds .branch yes)).ends (suiteAdds _) fun y then' => ?_
    refine (suiteHolds (lowerStmtEnds .branch no)).ends (suiteAdds _) fun n else' => ?_
    exact pushEnds (condEnds then' else')
  | .cond m test yes none => by
    simp only [lowerStmt]
    refine (lowerExprAdds straightAdmits test).before fun t => (addsCompose.condition trivial t).before fun t => ?_
    refine (suiteHolds (lowerStmtEnds .branch yes)).ends (suiteAdds _) fun y then' => ?_
    have same : exitsOf (.cond m test yes none) = (exitsOf yes).or .pass := by
      simp [exitsOf, Typing.completes, Typing.containsBreak, Typing.containsContinue, Exits.or, Exits.pass]
    rw [same, returnsOf, List.append_nil]
    exact pushEnds (condAloneEnds then')
  | .loop _ test body => by
    simp only [lowerStmt]
    rw [← bind_assoc]
    have tested : Adds Straight (lowerExpr test >>= condition test) :=
      (lowerExprAdds straightAdmits test).bind fun t => addsCompose.condition trivial t
    refine tested.beforeKnowing (P := fun t => Typing.isLiteralTrue test = true → Sure t)
      (fun c p t q run literal => testSure literal c p t q run) fun t sure => ?_
    exact (suiteHolds (lowerStmtEnds .branch body)).ends (suiteAdds _) fun b round => pushEnds (loopEnds sure round)
  | .brk _ | .cont _ => by
    simp only [lowerStmt]
    exact pushEnds ⟨Target.leavesOne fun o fuel scopes => .pure rfl, nofun⟩
  | .function mark name params _ (some (.mk _ ss)) isAsync _ => by
    simp only [lowerStmt]
    split
    · refine (functionStartAdds mark name params).before fun r => ?_
      exact ((functionBodyAdds isAsync _).bind fun _ => pushAdds (straightAdmits.define _ _ _ _)).ends
    · exact (Adds.pure _).ends
  | .enum mark _ _ isConst ambient => by
    simp only [lowerStmt]
    split
    · exact (Adds.pure _).ends
    · exact (enumLineAdds straightAdmits mark).ends
  | .empty .. | .function _ _ _ _ none _ _ | .typeAlias .. | .interface .. | .classDecl .. | .importDecl .. => by
    simp only [lowerStmt]
    exact (Adds.pure _).ends

theorem lowerStmtsEnds (place : Place) : (ss : List Stmt) →
    Ends c (exitsOfAll ss) (returnsOfAll ss) (lowerStmts place ss)
  | [] => by
    simp only [lowerStmts]
    exact (Adds.pure _).ends
  | st :: ss => by
    simp only [lowerStmts]
    exact (lowerStmtEnds place st).bind fun _ => lowerStmtsEnds place ss

end

theorem lowerBlockEnds (place : Place) (ss : List Stmt) :
    Ends c (exitsOfAll ss) (returnsOfAll ss) (do lowerDeclarations ss; lowerStmts place ss) :=
  (lowerDeclarationsAdds straightAdmits ss).before fun _ => lowerStmtsEnds place ss

theorem lowerBodyEnds (made : List Target.Param) (own : List SymbolId) (b : Block) :
    Ends c (exitsOfAll b.statements) (returnsOfAll b.statements) (lowerBody made own (.block b)) := by
  obtain ⟨mark, ss⟩ := b
  simp only [lowerBody]
  refine (blockStartAdds straightAdmits (fun _ => rfl) (fun _ => rfl) (fun _ => rfl) made own ss).before fun _ => ?_
  exact lowerBlockEnds .block ss

end Ends

/-! Functions -/

/-- Statements whose end cannot be passed are left by a return whenever their code ends. So a function without an
annotation that returns a value somewhere, and of which it is not reported that not all of its paths do, gives the value
of an expression that it returns whenever a call of it ends. -/
theorem reachabilitySound {ss : List Stmt} (breaks : Typing.anyContainsBreak ss = false)
    (continues : Typing.anyContainsContinue ss = false) :
    (Typing.endReachable ss = false → ∀ {place : Place} {c : Context} {p q : Progress},
      (do lowerDeclarations ss; lowerStmts place ss : Lowering Unit) c p = .ok ((), q) →
      ∃ added, q.made.toList = p.made.toList ++ added ∧
        ∀ {o : Target.Outside} {fuel : Nat} {scopes : List Target.Scope} {w u : Target.World} {flow : Target.Flow},
          Target.execAll o fuel scopes added w = .ok flow u → ∃ v, flow = .ret v) ∧
    ∀ {checker : Typing.Queries} {f : Typing.FunctionNode} {mark : Mark} {s s' : State} {e : Expr},
      f.result = none → f.body = .block (.mk mark ss) → some e ∈ returnsOfAll ss →
      (checker.checkContent f).run s = .ok ((), s') → ¬ s'.Reported f.mark .notAllPathsReturn →
      ∀ {made : List Target.Param} {own : List SymbolId} {c : Context} {p q : Progress} {code : List Target.Stmt},
        functionBody f.isAsync (lowerBody made own (.block (.mk mark ss))) c p = .ok (code, q) →
        ∀ {o : Target.Outside} {fuel : Nat} {scopes : List Target.Scope} {w u : Target.World} {v : Value},
          Target.runBody o fuel code scopes w = .ok v u →
          ∃ e' returned, some e' ∈ returnsOfAll ss ∧ returned ∈ returnedIn code ∧
            ReturnCode { c with isAsync := f.isAsync } (some e') returned ∧
            ∃ w' u', Target.eval o scopes returned w' = .ok v u' := by
  have exits (closed : Typing.endReachable ss = false) : exitsOfAll ss = .none := by
    simp only [exitsOfAll, closed, breaks, continues, Exits.none]
  constructor
  · intro closed place c p q run
    obtain ⟨added, made, ended⟩ := lowerBlockEnds (c := c) place ss p () q run
    refine ⟨added, made, fun {o fuel scopes w u flow} run => ?_⟩
    have allowed := ended.leaves o fuel scopes w flow u run
    rw [exits closed] at allowed
    exact Target.onlyReturns allowed
  · intro checker f mark s s' e unannotated body returns checked quiet made own c p q code lowered o fuel scopes w u v run
    obtain ⟨closed, bare⟩ := Typing.pathsReturn unannotated body checked quiet returns
    have ended := suiteHolds (lowerBodyEnds (c := { c with isAsync := f.isAsync }) made own (.mk mark ss)) p code q lowered
    have leaves := ended.leaves
    rw [show exitsOfAll (Source.Block.mk mark ss).statements = _ from exits closed] at leaves
    obtain ⟨returned, member, valued⟩ := Target.bodyReturns leaves run
    obtain ⟨value, there, made⟩ := ended.returns returned member
    cases value with
    | none => exact absurd there bare
    | some e' => exact ⟨e', returned, there, member, made, valued⟩

/-! A loop that is left by a return only -/

def foreverBody : List Stmt :=
  [.loop (plainMark 4) (.boolean (plainMark 3) true) (.ret (plainMark 5) (some (.ident (plainMark 2) "p")))]

def foreverFunction : Typing.FunctionNode :=
  { mark := plainMark 6, params := [promiseParam], result := none, body := .block (.mk (plainMark 7) foreverBody) }

def foreverTyping : State :=
  { promiseTyping Typing.numberType with
    nodeTypes := (({} : Std.HashMap Nat Typing.TypeId).insert 2 Typing.numberType).insert 3 Typing.booleanType }

def foreverStart : Progress := { promiseStart Typing.numberType with typing := foreverTyping }

theorem foreverTypes : foreverTyping.nodeTypes[(2 : Nat)]? = some Typing.numberType ∧
    foreverTyping.nodeTypes[(3 : Nat)]? = some Typing.booleanType := by
  simp only [foreverTyping, Std.HashMap.getElem?_insert]
  exact ⟨rfl, rfl⟩

theorem foreverChecked : (Typing.answers.checkContent foreverFunction).run foreverTyping = .ok ((), foreverTyping) := by
  have typed (e : Expr) {t : Typing.TypeId} (noted : foreverTyping.nodeTypes[e.mark.id]? = some t) :
      Typing.Reads foreverTyping (1 ≤ Typing.depthLimit) (discard (Typing.answers.typeOfExpr e none)) () := by
    unfold discard
    rw [LawfulFunctor.map_const, Function.comp, map_eq_pure_bind]
    exact (Typing.readsExprType noted).bind (.pure _)
  have returned : Typing.Reads foreverTyping (1 ≤ Typing.depthLimit)
      (Typing.answers.checkReturn (plainMark 5) (some (.ident (plainMark 2) "p"))) () := by
    refine Typing.Reads.get fun kept opened => ?_
    have outermost : (foreverTyping.asking kept opened).container? (plainMark 5) = none := by
      simp [State.container?, foreverTyping, promiseTyping, State.initial, State.asking]
    simp only [outermost]
    exact typed (.ident (plainMark 2) "p") foreverTypes.1
  have body : Typing.Reads foreverTyping (1 ≤ Typing.depthLimit) (Typing.answers.checkStatements foreverBody) () := by
    unfold Typing.Queries.checkStatements Typing.Queries.checkStatement
    simp only [foreverBody]
    refine ((typed (.boolean (plainMark 3) true) foreverTypes.2).bind returned).bind (.pure _)
  exact (body.bind (f := fun _ => Typing.answers.checkPaths foreverFunction foreverBody) (.pure ())).known (by decide)

theorem foreverLowered : functionBody false (lowerBody [⟨"p", .required⟩] [2] (.block (.mk (plainMark 7) foreverBody)))
    promiseContext foreverStart = .ok ([.loop (.bool true) [.ret (.name "p")]], foreverStart) := by
  have asked (made : Array Target.Stmt) : ask (Typing.Check.symbolAt? (plainMark 2)) promiseContext
      { foreverStart with made } = .ok (some 2, { foreverStart with made }) := by
    have means : symbolAt foreverTyping (plainMark 2) = some 2 := by
      simp [symbolAt, foreverTyping, promiseTyping, plainMark]
    change Except.ok (symbolAt foreverTyping (plainMark 2), _) = _
    rw [means]
  have value (made : Array Target.Stmt) : lowerExpr (.ident (plainMark 2) "p") promiseContext
      { foreverStart with made } = .ok (.name "p", { foreverStart with made }) := by
    simp only [lowerExpr, nameExpr, bindRun, asked]
    rfl
  have literal (p : Progress) : lowerExpr (.boolean (plainMark 3) true) promiseContext p = .ok (.bool true, p) := by
    simp only [lowerExpr]
    rfl
  have test (made : Array Target.Stmt) : condition (.boolean (plainMark 3) true) (.bool true) promiseContext
      { foreverStart with made } = .ok (.bool true, { foreverStart with made }) := by
    have typed := typeOfKnown (c := promiseContext) (p := { foreverStart with made })
      (e := .boolean (plainMark 3) true) foreverTypes.2
    have parts : foreverTyping.allParts Typing.booleanType TypeFlags.booleanLike = true := rfl
    have bools : allParts Typing.booleanType TypeFlags.booleanLike promiseContext { foreverStart with made } =
        .ok (foreverTyping.allParts Typing.booleanType TypeFlags.booleanLike, { foreverStart with made }) := askKnown rfl
    simp only [condition, bindRun, typed, bools, parts, if_true]
    rfl
  have start (p : Progress) : blockStart [⟨"p", .required⟩] [2] foreverBody promiseContext p = .ok ((), p) := rfl
  have functions (p : Progress) : lowerDeclarations foreverBody promiseContext p = .ok ((), p) := by
    simp only [foreverBody, lowerDeclarations]
    rfl
  change suite _ promiseContext _ = _
  simp only [suite, bindRun, collectedRun, lowerBody, start, functions]
  simp only [foreverBody, lowerStmts, lowerStmt, bindRun, suite, collectedRun, literal, test, value]
  rfl

theorem foreverReturns : ∃ code q,
    functionBody false (lowerBody [⟨"p", .required⟩] [2] (.block (.mk (plainMark 7) foreverBody))) promiseContext
      foreverStart = .ok (code, q) ∧
    ∀ {o : Target.Outside} {fuel : Nat} {scopes : List Target.Scope} {w u : Target.World} {v : Value},
      Target.runBody o fuel code scopes w = .ok v u →
      ∃ e returned, some e ∈ returnsOfAll foreverBody ∧ returned ∈ returnedIn code ∧
        ReturnCode promiseContext (some e) returned ∧
        ∃ w' u', Target.eval o scopes returned w' = .ok v u' := by
  refine ⟨_, _, foreverLowered, ?_⟩
  have quiet : ¬ foreverTyping.Reported foreverFunction.mark .notAllPathsReturn := by
    simp [State.Reported, foreverTyping, promiseTyping, State.initial]
  have returns : some (.ident (plainMark 2) "p") ∈ returnsOfAll foreverBody := by
    simp [foreverBody, returnsOfAll, returnsOf]
  intro o fuel scopes w u v run
  exact (reachabilitySound rfl rfl).2 (f := foreverFunction) rfl rfl returns foreverChecked quiet foreverLowered run

end Emit

end Fragment
