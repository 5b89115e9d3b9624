import Fragment.Proofs.Adding
import Fragment.Proofs.Entering
import Fragment.Proofs.Scoping

/-! What parameters hold when the body of a function starts.
The lines that stand first in a body leave to each parameter what is passed for it, unless the function declares a
`var` that shares the symbol of the parameter: that one is given the value undefined like every other. -/
namespace Fragment.Emit

open Source (Mark Expr Param Body Stmt)
open Typing (SymbolId State)
open Target (Passed passed execAll readName localNames globalNames)
open Lowering

/-- The lines that stand first in the body of a function. -/
def prologue (params : List Target.Param) (own : List SymbolId) : Body → Lowering Unit
  | .block (.mk _ ss) => blockStart params own ss
  | .expr e => do
    bindingLines (assignedIn e) own
    collectLine params

/-- The functions and statements of the source that follow. -/
def afterPrologue : Body → Lowering Unit
  | .block (.mk _ ss) => do
    lowerDeclarations ss
    lowerStmts .block ss
  | .expr e => do push (.ret (← returnExpr e (← lowerExpr e)))

/-- The symbols of the variables that a function gives the value undefined at its start. -/
def hoistedBy (s : State) : Body → List SymbolId
  | .block (.mk _ ss) => symbolsOf s (hoistedInAll ss)
  | .expr _ => []

theorem bodyStarts (params : List Target.Param) (own : List SymbolId) (body : Body) :
    lowerBody params own body = prologue params own body >>= fun _ => afterPrologue body := by
  cases body with
  | block b =>
    obtain ⟨mark, ss⟩ := b
    unfold prologue afterPrologue
    simp only [lowerBody]
  | expr e =>
    unfold prologue afterPrologue
    simp only [lowerBody, bind_assoc]

/-! What follows says no more where names come from -/

def Plain (x : Target.Stmt) : Prop := x.isBorrow = false

theorem plainAdmits : Admits Plain := ⟨fun _ _ _ _ => rfl, fun _ _ => rfl, fun _ => rfl⟩

theorem pushPlain {x : Target.Stmt} (plain : x.isBorrow = false) : Adds Plain (push x) := pushAdds plain

mutual

theorem lowerStmtPlain (place : Place) : (st : Stmt) → Adds Plain (lowerStmt place st)
  | .expr m e => exprStmtAdds plainAdmits place m e
  | .var _ kind declarations ambient => by
    simp only [lowerStmt]
    cases ambient with
    | true => exact .pure _
    | false => exact lowerDeclaratorsAdds plainAdmits _ declarations
  | .ret _ (some e) => by
    simp only [lowerStmt]
    exact (lowerExprAdds plainAdmits e).bind fun v => (returnAdds e v).bind fun v => pushPlain rfl
  | .ret _ none | .brk _ | .cont _ => by
    simp only [lowerStmt]
    exact pushPlain rfl
  | .block (.mk _ ss) => by
    simp only [lowerStmt]
    exact (lowerDeclarationsAdds plainAdmits ss).bind fun _ => lowerStmtsPlain .block ss
  | .cond _ test yes (some no) => by
    simp only [lowerStmt]
    refine (lowerExprAdds plainAdmits test).bind fun t => (addsCompose.condition trivial t).bind fun t => ?_
    exact (suiteAdds _).bind fun y => (suiteAdds _).bind fun n => pushPlain rfl
  | .cond _ test yes none => by
    simp only [lowerStmt]
    refine (lowerExprAdds plainAdmits test).bind fun t => (addsCompose.condition trivial t).bind fun t => ?_
    exact (suiteAdds _).bind fun y => pushPlain rfl
  | .loop _ test body => by
    simp only [lowerStmt]
    refine (lowerExprAdds plainAdmits test).bind fun t => (addsCompose.condition trivial t).bind fun t => ?_
    exact (suiteAdds _).bind fun b => pushPlain rfl
  | .function mark name params _ (some (.mk _ ss)) isAsync _ => by
    simp only [lowerStmt]
    split
    · refine (functionStartAdds mark name params).bind fun r => (functionBodyAdds isAsync _).bind fun _ => ?_
      exact pushAdds (plainAdmits.define _ _ _ _)
    · exact .pure _
  | .enum mark _ _ isConst ambient => by
    simp only [lowerStmt]
    split
    · exact .pure _
    · exact enumLineAdds plainAdmits mark
  | .empty .. | .function _ _ _ _ none _ _ | .typeAlias .. | .interface .. | .classDecl .. | .importDecl .. => by
    simp only [lowerStmt]
    exact .pure _

theorem lowerStmtsPlain (place : Place) : (ss : List Stmt) → Adds Plain (lowerStmts place ss)
  | [] => by
    simp only [lowerStmts]
    exact .pure _
  | st :: ss => by
    simp only [lowerStmts]
    exact (lowerStmtPlain place st).bind fun _ => lowerStmtsPlain place ss

end

theorem afterProloguePlain (body : Body) : Adds Plain (afterPrologue body) := by
  cases body with
  | block b =>
    obtain ⟨mark, ss⟩ := b
    exact (lowerDeclarationsAdds plainAdmits ss).bind fun _ => lowerStmtsPlain .block ss
  | expr e => exact (lowerExprAdds plainAdmits e).bind fun v => (returnAdds e v).bind fun v => pushPlain rfl

/-! Names -/

section Names

variable {α β : Type} {c : Context} {p q : Progress}

/-- The names of some symbols. -/
def Named (c : Context) (n : Names) (symbols : List SymbolId) (names : List String) : Prop :=
  symbols.map (c.named? n) = names.map some

section Named

variable {n n' : Names} {symbols : List SymbolId} {names : List String}

theorem Named.of (each : List.Forall₂ (fun x a => c.named? n x = some a) symbols names) : Named c n symbols names := by
  rw [Named, ← List.forall₂_eq_eq_eq, List.forall₂_map_left_iff, List.forall₂_map_right_iff]
  exact each

theorem Named.mem (named : Named c n symbols names) (a : String) :
    a ∈ names ↔ ∃ x ∈ symbols, c.named? n x = some a := by
  rw [← List.mem_map_of_injective (Option.some_injective _), ← named, List.mem_map]

theorem Named.has (named : Named c n symbols names) {x : SymbolId} (member : x ∈ symbols) :
    ∃ a, c.named? n x = some a := by
  have there : c.named? n x ∈ names.map some := named ▸ List.mem_map_of_mem member
  obtain ⟨a, -, same⟩ := List.mem_map.mp there
  exact ⟨a, same.symm⟩

theorem Named.kept (named : Named c n symbols names) (later : Later c n n') : Named c n' symbols names := by
  have same : symbols.map (c.named? n') = symbols.map (c.named? n) := by
    refine List.map_congr_left fun x member => ?_
    obtain ⟨a, has⟩ := named.has member
    rw [has, later x a has]
  exact same.trans named

theorem Named.nodup (named : Named c n symbols names) (distinct : Distinct c n) (apart : symbols.Nodup) :
    names.Nodup := by
  have images : (names.map some).Nodup := by
    rw [← named]
    refine apart.map_on fun x hx y hy same => ?_
    obtain ⟨a, has⟩ := named.has hx
    exact namedInjective distinct has (same ▸ has)
  exact images.of_map some

theorem Named.at (named : Named c n symbols names) {i : Nat} {x : SymbolId} {a : String} (symbol : symbols[i]? = some x)
    (name : names[i]? = some a) : c.named? n x = some a := by
  have same : (symbols.map (c.named? n))[i]? = (names.map some)[i]? := by rw [named]
  simpa [symbol, name] using same

end Named

/-- Steps that only give names, for some items. -/
theorem mapContinues {f : α → Lowering β} {Q : α → β → Names → Prop}
    (kept : ∀ {a b n n'}, Q a b n → Later c n n' → Q a b n')
    (each : ∀ {a b p q}, Distinct c p.names → f a c p = .ok (b, q) → Continues c p q ∧ Q a b q.names)
    {items : List α} {made : List β} (distinct : Distinct c p.names) (run : items.mapM f c p = .ok (made, q)) :
    Continues c p q ∧ List.Forall₂ (fun a b => Q a b q.names) items made := by
  induction items generalizing p made with
  | nil =>
    cases run
    exact ⟨.refl distinct, .nil⟩
  | cons a rest ih =>
    rw [List.mapM_cons] at run
    obtain ⟨b, r, first, later⟩ := bindOk run
    obtain ⟨bs, u, others, last⟩ := bindOk later
    cases last
    obtain ⟨continues, holds⟩ := each distinct first
    obtain ⟨more, all⟩ := ih continues.distinct others
    exact ⟨continues.trans more, .cons (kept holds more.kept) all⟩

theorem parametersContinue {params : List Param} {made : List Target.Param} {own : List SymbolId}
    (distinct : Distinct c p.names) (run : parameters params c p = .ok ((made, own), q)) :
    Continues c p q ∧ Named c q.names own (made.map (·.name)) := by
  obtain ⟨pairs, r, ran, last⟩ := bindOk run
  cases last
  obtain ⟨continues, named⟩ : Continues c p q ∧
      List.Forall₂ (fun _ b => c.named? q.names b.2 = some b.1.name) params pairs := by
    refine mapContinues (Q := fun _ b n => c.named? n b.2 = some b.1.name) ?_ ?_ distinct ran
    · exact fun has later => later _ _ has
    · intro param made p q distinct run
      obtain ⟨found, r, asked, later⟩ := bindOk run
      obtain ⟨-, rfl⟩ := Prod.mk.inj (Except.ok.inj (show Except.ok (_, p) = .ok (found, r) from asked))
      cases found with
      | none => cases later
      | some x =>
        obtain ⟨name, u, given, last⟩ := bindOk later
        cases last
        exact nameOfContinues distinct given
  refine ⟨continues, .of ?_⟩
  clear run ran continues
  induction named with
  | nil => exact .nil
  | cons first rest ih => exact .cons first ih

theorem namesContinue {symbols : List SymbolId} {names : List String} (distinct : Distinct c p.names)
    (run : symbols.mapM nameOf c p = .ok (names, q)) : Continues c p q ∧ Named c q.names symbols names := by
  obtain ⟨continues, named⟩ := mapContinues (Q := fun x a n => c.named? n x = some a)
    (fun has later => later _ _ has) (fun distinct run => nameOfContinues distinct run) distinct run
  exact ⟨continues, .of named⟩

/-! Lines that stand first -/

/-- Steps that give names and add some statements. -/
structure Goes (c : Context) (p q : Progress) (added : List Target.Stmt) : Prop where
  distinct : Distinct c q.names
  kept : Later c p.names q.names
  typing : q.typing = p.typing
  made : q.made.toList = p.made.toList ++ added

theorem Continues.goes (h : Continues c p q) : Goes c p q [] :=
  ⟨h.distinct, h.kept, h.typing, by simp [h.made]⟩

theorem Goes.trans {r : Progress} {xs ys : List Target.Stmt} (first : Goes c p q xs) (later : Goes c q r ys) :
    Goes c p r (xs ++ ys) where
  distinct := later.distinct
  kept := first.kept.trans later.kept
  typing := later.typing.trans first.typing
  made := by rw [later.made, first.made, List.append_assoc]

theorem pushGoes {x : Target.Stmt} (distinct : Distinct c p.names) (run : push x c p = .ok ((), q)) :
    Goes c p q [x] := by
  cases run
  exact ⟨distinct, Later.refl _, rfl, by simp⟩

theorem bindingLinesGo {assigned : List Mark} {own : List SymbolId} (distinct : Distinct c p.names)
    (run : bindingLines assigned own c p = .ok ((), q)) :
    ∃ globals nonlocals, Goes c p q (borrowLines globals nonlocals) ∧
      ∀ a, a ∈ globals ∨ a ∈ nonlocals → ∃ x, x ∉ own ∧ c.named? q.names x = some a := by
  obtain ⟨named, r, placed, typing, names, made⟩ := bindingLinesRun run
  obtain ⟨continues, -, only⟩ := placedNamesContinue _ distinct placed
  refine ⟨(named.filter (·.1)).map (·.2), (named.filter (!·.1)).map (·.2), ?_, fun a member => ?_⟩
  · refine ⟨names ▸ continues.distinct, names ▸ continues.kept, typing.trans continues.typing, ?_⟩
    rw [made, continues.made]
  · have entry : ∃ b, (b, a) ∈ named := by
      rcases member with member | member <;> obtain ⟨⟨b, _⟩, entry, rfl⟩ := List.mem_map.mp member
      · exact ⟨b, (List.mem_filter.mp entry).1⟩
      · exact ⟨b, (List.mem_filter.mp entry).1⟩
    obtain ⟨b, entry⟩ := entry
    obtain ⟨x, foreign, -, has⟩ := only _ entry
    have apart := (List.mem_filter.mp foreign).2
    simp only [Bool.and_eq_true, Bool.not_eq_true', List.contains_eq_mem, decide_eq_false_iff_not] at apart
    exact ⟨x, apart.1, names ▸ has⟩

theorem collectLineGoes {params : List Target.Param} (distinct : Distinct c p.names)
    (run : collectLine params c p = .ok ((), q)) : Goes c p q (Target.collectLines params) := by
  unfold collectLine at run
  unfold Target.collectLines
  cases found : (params.filter (·.mode = .rest)).getLast? with
  | some last =>
    rw [found] at run
    exact pushGoes distinct run
  | none =>
    rw [found] at run
    cases run
    exact (Continues.refl distinct).goes

theorem hoistLinesGo {marks : List Mark} (distinct : Distinct c p.names) (run : hoistLines marks c p = .ok ((), q)) :
    ∃ hoisted : List String, Goes c p q (hoisted.map (.assign · .none)) ∧
      ∀ a, a ∈ hoisted ↔ ∃ x ∈ symbolsOf p.typing marks, c.named? q.names x = some a := by
  have lines {names : List String} {p : Progress} {u : PUnit} (distinct : Distinct c p.names)
      (run : (forIn names PUnit.unit fun name _ => do
        push (.assign name .none)
        pure (ForInStep.yield PUnit.unit) : Lowering PUnit) c p = .ok (u, q)) :
      Goes c p q (names.map (.assign · .none)) := by
    induction names generalizing p with
    | nil =>
      cases run
      exact (Continues.refl distinct).goes
    | cons name rest ih =>
      simp only [List.forIn_cons, bind_assoc, pure_bind] at run
      obtain ⟨_, r, pushed, later⟩ := bindOk run
      have first := pushGoes distinct pushed
      exact first.trans (ih first.distinct later)
  simp only [hoistLines] at run
  rw [bindRun, declaredSymbolsRun] at run
  obtain ⟨names, r, given, later⟩ := bindOk run
  obtain ⟨u, s, ran, last⟩ := bindOk later
  cases last
  obtain ⟨continues, named⟩ := namesContinue distinct given
  have goes := lines continues.distinct ran
  refine ⟨names.eraseDups, continues.goes.trans goes, fun a => ?_⟩
  rw [List.mem_eraseDups]
  exact (named.kept goes.kept).mem a

/-- The lines that stand first: where names come from, the rest arguments, and hoisted variables. -/
theorem prologueGoes {params : List Target.Param} {own : List SymbolId} {body : Body} (distinct : Distinct c p.names)
    (run : prologue params own body c p = .ok ((), q)) :
    ∃ globals nonlocals, ∃ hoisted : List String,
      Goes c p q (borrowLines globals nonlocals ++ (Target.collectLines params ++ hoisted.map (Target.Stmt.assign · .none))) ∧
      (∀ a, a ∈ globals ∨ a ∈ nonlocals → ∃ x, x ∉ own ++ hoistedBy p.typing body ∧ c.named? q.names x = some a) ∧
      ∀ a, a ∈ hoisted ↔ ∃ x ∈ hoistedBy p.typing body, c.named? q.names x = some a := by
  cases body with
  | block b =>
    obtain ⟨mark, ss⟩ := b
    unfold prologue at run
    simp only [blockStart] at run
    rw [bindRun, declaredSymbolsRun] at run
    obtain ⟨_, r, borrowed, later⟩ := bindOk run
    obtain ⟨_, u, collected, hoist⟩ := bindOk later
    obtain ⟨globals, nonlocals, first, foreign⟩ := bindingLinesGo distinct borrowed
    have second := collectLineGoes first.distinct collected
    obtain ⟨hoisted, third, exact⟩ := hoistLinesGo second.distinct hoist
    have rest := second.trans third
    refine ⟨globals, nonlocals, hoisted, first.trans rest, fun a member => ?_, fun a => ?_⟩
    · obtain ⟨x, apart, has⟩ := foreign a member
      refine ⟨x, fun inside => apart ?_, rest.kept x a has⟩
      exact appendSubset (List.Subset.refl own) (List.filterMap_subset _ (hoistedAllDeclared ss)) inside
    · rw [exact, second.typing, first.typing]
      rfl
  | expr e =>
    obtain ⟨_, r, borrowed, later⟩ := bindOk run
    obtain ⟨globals, nonlocals, first, foreign⟩ := bindingLinesGo distinct borrowed
    have second := collectLineGoes first.distinct later
    unfold hoistedBy
    refine ⟨globals, nonlocals, [], ?_, fun a member => ?_, fun a => by simp⟩
    · rw [List.map_nil, List.append_nil]
      exact first.trans second
    · obtain ⟨x, apart, has⟩ := foreign a member
      exact ⟨x, by simpa [hoistedBy] using apart, second.kept x a has⟩

end Names

/-! Variables of the code -/

section Code

variable {globals nonlocals hoisted : List String} {params : List Target.Param} {rest : List Target.Stmt} {x : String}

/-- The code that begins with such lines. -/
def opened (globals nonlocals hoisted : List String) (params : List Target.Param) : List Target.Stmt :=
  borrowLines globals nonlocals ++ (Target.collectLines params ++ hoisted.map (.assign · .none))

theorem hoistedBound (names : List String) : Target.boundIn (names.map (.assign · .none)) = names := by
  induction names with
  | nil => rfl
  | cons name rest ih => simp [Target.boundIn, Target.Stmt.bound, Target.Expr.bound, ih]

theorem openedLocal (quiet : Target.Quiet rest) (own : x ∈ params.map (·.name) ∨ x ∈ hoisted)
    (apart : ¬ (x ∈ globals ∨ x ∈ nonlocals)) :
    x ∈ localNames params (opened globals nonlocals hoisted params ++ rest) := by
  have lines : Target.Quiet (Target.collectLines params ++ hoisted.map (Target.Stmt.assign · .none)) := by
    refine Target.Quiet.append (fun s member => ?_) fun s member => ?_
    · obtain ⟨_, -, rfl⟩ := Option.map_eq_some_iff.mp (Option.mem_toList.mp member)
      rfl
    · obtain ⟨_, -, rfl⟩ := List.mem_map.mp member
      rfl
  have here : x ∉ Target.borrowed (opened globals nonlocals hoisted params ++ rest) := by
    rw [opened, List.append_assoc, Target.borrowedLines globals nonlocals (lines.append quiet)]
    exact apart
  have bound : x ∈ params.map (·.name) ∨ x ∈ Target.boundIn (opened globals nonlocals hoisted params ++ rest) := by
    refine own.imp_right fun member => ?_
    simp [opened, boundAppend, hoistedBound, member]
  simpa [localNames, here] using bound

end Code

section Function

variable {c : Context} {p q r : Progress} {isAsync : Bool}

/-- The code of a function is what stands first, and then statements that say no more where names come from. -/
theorem functionBodyRun {params : List Target.Param} {own : List SymbolId} {body : Body} {code : List Target.Stmt}
    (lowered : functionBody isAsync (lowerBody params own body) c q = .ok (code, r)) :
    ∃ start rest, prologue params own body { c with isAsync } { q with made := #[] } = .ok ((), start) ∧
      code = start.made.toList ++ rest ∧ Target.Quiet rest := by
  change suite (lowerBody params own body) { c with isAsync } q = _ at lowered
  obtain ⟨body', s, ran, last⟩ := bindOk lowered
  rw [collectedRun] at ran
  split at ran
  case h_2 => cases ran
  case h_1 _ t whole =>
    cases ran
    rw [bodyStarts] at whole
    obtain ⟨_, start, first, later⟩ := bindOk whole
    obtain ⟨rest, made, quiet⟩ := afterProloguePlain body _ _ _ _ later
    cases all : start.made.toList ++ rest with
    | nil =>
      rw [made, all] at last
      cases last
      have pass : Target.Quiet [.pass] := by simp [Target.Quiet, Target.Stmt.isBorrow]
      exact ⟨start, [.pass], first, by simp [(List.append_eq_nil_iff.mp all).1], pass⟩
    | cons x xs =>
      rw [made, all] at last
      cases last
      exact ⟨start, rest, first, all.symm, quiet⟩

/-- The variables that the code of a called function can use. -/
def callScopes (frame : Nat) (params : List Target.Param) (code : List Target.Stmt) (around : List Target.Scope) :
    List Target.Scope := ⟨frame, localNames params code, globalNames code⟩ :: around

/-- When the lines that stand first in a function have run, before its functions and statements, each parameter holds
what has been passed for it, unless a `var` of the function has the symbol of the parameter: that one has the value
undefined. -/
theorem prologueKeepsArguments {params : List Param} {made : List Target.Param} {own : List SymbolId} {body : Body}
    {code : List Target.Stmt} (distinct : Distinct c p.names)
    (named : parameters params c p = .ok ((made, own), q)) (apart : own.Nodup)
    (lowered : functionBody isAsync (lowerBody made own body) c q = .ok (code, r)) :
    ∃ start rest, prologue made own body { c with isAsync } { q with made := #[] } = .ok ((), start) ∧
      code = start.made.toList ++ rest ∧
      ∀ {args : List Value} {w u : Target.World} {frame : Nat},
        (Target.bindParams args made >>= Target.Run.newFrame) w = .ok frame u →
        ∀ (o : Target.Outside) (fuel : Nat) (around : List Target.Scope),
          ∃ v, execAll o fuel (callScopes frame made code around) start.made.toList u = .ok .next v ∧
            ∀ (i : Nat) (param : Target.Param) (x : SymbolId) (given : Passed), made[i]? = some param →
              own[i]? = some x → (passed args (made.map (·.mode)))[i]? = some given →
              ∃ value, readName (callScopes frame made code around) param.name v = .ok value v ∧
                if x ∈ hoistedBy p.typing body then value = .undefined else given.Is v value := by
  obtain ⟨continues, names⟩ := parametersContinue distinct named
  obtain ⟨start, rest, began, split, quiet⟩ := functionBodyRun lowered
  let inside : Progress := { q with made := #[] }
  have before : Distinct { c with isAsync } inside.names := distinctAsync.mpr continues.distinct
  obtain ⟨globals, nonlocals, hoisted, goes, foreign, exact⟩ := prologueGoes before began
  have distinct := distinctAsync.mp goes.distinct
  have own' : Named c start.names own (made.map (·.name)) := names.kept goes.kept
  have lines : start.made.toList = opened globals nonlocals hoisted made := by simpa [opened, inside] using goes.made
  rw [show inside.typing = p.typing from continues.typing] at foreign exact
  -- A name stands for one symbol, so parameters and hoisted variables are not among the names from elsewhere.
  have mine {a : String} (owned : a ∈ made.map (·.name) ∨ a ∈ hoisted) : a ∈ localNames made code := by
    rw [split, lines]
    refine openedLocal quiet owned fun borrowed => ?_
    obtain ⟨x, other, has⟩ := foreign a borrowed
    refine other (List.mem_append.mpr (owned.imp (fun member => ?_) fun member => ?_))
    · obtain ⟨y, there, same⟩ := (own'.mem a).mp member
      exact namedInjective distinct has same ▸ there
    · obtain ⟨y, there, same⟩ := (exact a).mp member
      exact namedInjective distinct has same ▸ there
  refine ⟨start, rest, began, split, fun {args w u frame} entered o fuel around => ?_⟩
  obtain ⟨f, s, bound, entered⟩ := Target.bindEnds entered
  have holds := (Target.bindParamsHolds (own'.nodup distinct apart) bound).2
  cases entered
  let scope : Target.Scope := ⟨s.frames.size, localNames made code, globalNames code⟩
  let entered : Target.World := { s with frames := s.frames.push f }
  have frame : entered.frames[scope.frame]? = some f := by simp [scope, entered]
  have holds : Target.Holds entered f args made := holds
  obtain ⟨v, ran, reads⟩ := Target.startRun o fuel around globals nonlocals
    (fun param member => mine (.inl (List.mem_map_of_mem member))) (fun a member => mine (.inr member))
    (own'.nodup distinct apart) frame holds
  refine ⟨v, lines ▸ ran, fun i param x given here symbol there => ?_⟩
  obtain ⟨value, read, is⟩ := reads i param given here there
  refine ⟨value, read, ?_⟩
  have has : c.named? start.names x = some param.name := own'.at symbol (by simp [here])
  have same : param.name ∈ hoisted ↔ x ∈ hoistedBy p.typing body := by
    rw [exact]
    constructor
    · rintro ⟨y, member, other⟩
      exact namedInjective distinct has other ▸ member
    · exact fun member => ⟨x, member, has⟩
  simpa only [same] using is

end Function

/-! A function with one parameter that declares one `var` -/

/-- What is known of `(x) => { var … }` if its variable has some symbol. -/
def hoistTyping (z : SymbolId) : State :=
  { State.initial with
    symbols := State.initial.symbols ++ #[
      { flags := Typing.SymbolFlags.functionVariable, name := "x" },
      { flags := Typing.SymbolFlags.functionVariable, name := "y" }]
    symbolOf := (({} : Std.HashMap Nat SymbolId).insert 0 1).insert 1 z }

def hoistStart (z : SymbolId) : Progress :=
  { typing := hoistTyping z, names := { used := ["y", "x"], symbols := [(2, "y"), (1, "x")] } }

def hoistContext : Context := { kind := .script, librarySymbols := [], moduleSymbols := [] }

def hoistParam : Param := .mk (plainMark 0) "x" none false false

def hoistBody (name : String) : Body :=
  .block (.mk (plainMark 2) [.var (plainMark 3) .var [.mk (plainMark 1) name none none] false])

theorem hoistDistinct (z : SymbolId) : Distinct hoistContext (hoistStart z).names := by
  refine ⟨by simp [hoistContext], by simp [hoistContext], by simp [hoistContext, hoistStart], ?_⟩
  simp [hoistStart]

theorem hoistDeclares (z : SymbolId) : symbolsOf (hoistTyping z) [plainMark 1] = [z] := by
  simp [symbolsOf, hoistTyping, plainMark]

theorem hoistParameters (z : SymbolId) : parameters [hoistParam] hoistContext (hoistStart z) =
    .ok (([⟨"x", .required⟩], [1]), hoistStart z) := by
  have declares : (hoistTyping z).symbolOf[(0 : Nat)]? = some 1 := by
    simp [hoistTyping, Std.HashMap.getElem_insert]
  have asked : declaredSymbol? (plainMark 0) hoistContext (hoistStart z) = .ok (some 1, hoistStart z) := by
    change Except.ok ((hoistTyping z).symbolOf[(0 : Nat)]?, hoistStart z) = _
    rw [declares]
  simp only [parameters, List.mapM_cons, List.mapM_nil, hoistParam, Param.mark, bindRun, asked]
  rfl

section Hoist

variable {z : SymbolId} {name : String}

theorem hoistPrologue
    (given : ∀ p : Progress, p.names = (hoistStart z).names → nameOf z hoistContext p = .ok (name, p)) :
    prologue [⟨"x", .required⟩] [1] (hoistBody name) hoistContext (hoistStart z) =
      .ok ((), { hoistStart z with made := #[.assign name .none] }) := by
  have lines (own : List SymbolId) (p : Progress) : bindingLines [] own hoistContext p = .ok ((), p) := rfl
  have rest (p : Progress) : collectLine [⟨"x", .required⟩] hoistContext p = .ok ((), p) := rfl
  have hoist : hoistLines [plainMark 1] hoistContext (hoistStart z) =
      .ok ((), { hoistStart z with made := #[.assign name .none] }) := by
    have named : [z].mapM nameOf hoistContext (hoistStart z) = .ok ([name], hoistStart z) := by
      rw [List.mapM_cons, bindRun, given _ rfl]
      rfl
    simp only [hoistLines, bindRun, declaredSymbolsRun]
    rw [show (hoistStart z).typing = hoistTyping z from rfl, ← symbolsOf, hoistDeclares, named]
    rfl
  change (blockStart _ _ _) hoistContext (hoistStart z) = _
  simp only [blockStart, bindRun, declaredSymbolsRun]
  rw [show assignedInStmts [.var (plainMark 3) .var [.mk (plainMark 1) name none none] false] = [] from rfl, lines]
  simp only [rest]
  exact hoist

theorem hoistCode
    (given : ∀ p : Progress, p.names = (hoistStart z).names → nameOf z hoistContext p = .ok (name, p)) :
    functionBody false (lowerBody [⟨"x", .required⟩] [1] (hoistBody name)) hoistContext (hoistStart z) =
      .ok ([.assign name .none], hoistStart z) := by
  have declares : (hoistTyping z).symbolOf[(1 : Nat)]? = some z := by simp [hoistTyping]
  have asked (p : Progress) (typing : p.typing = hoistTyping z) :
      declaredSymbol? (plainMark 1) hoistContext p = .ok (some z, p) := by
    change Except.ok (p.typing.symbolOf[(1 : Nat)]?, p) = _
    rw [typing, declares]
  have after (p : Progress) (typing : p.typing = hoistTyping z) :
      afterPrologue (hoistBody name) hoistContext p = .ok ((), p) := by
    unfold afterPrologue
    simp only [hoistBody, lowerDeclarations, lowerStmts, lowerStmt, lowerDeclarators, variableName, bindRun, pureRun,
      Bool.false_eq_true, if_false, decide_true, if_true, asked p typing]
  change suite _ hoistContext (hoistStart z) = _
  simp only [suite, bindRun, collectedRun, bodyStarts]
  rw [show ({ hoistStart z with made := #[] } : Progress) = hoistStart z from rfl, hoistPrologue given]
  simp only [after { hoistStart z with made := #[.assign name .none] } rfl]
  rfl

end Hoist

/-- What a call with the argument 1 begins with. -/
def hoistWorld : Target.World := { frames := #[[("x", .number (.int 1))]] }

/-- A variable of its own leaves the parameter as it is. -/
theorem otherVariableKept : ∃ code r start rest,
    functionBody false (lowerBody [⟨"x", .required⟩] [1] (hoistBody "y")) hoistContext (hoistStart 2) = .ok (code, r) ∧
    prologue [⟨"x", .required⟩] [1] (hoistBody "y") hoistContext (hoistStart 2) = .ok ((), start) ∧
    code = start.made.toList ++ rest ∧
    ∃ v, (Target.bindParams [.number (.int 1)] [⟨"x", .required⟩] >>= Target.Run.newFrame) {} = .ok 0 hoistWorld ∧
      execAll (Target.outside 1) 1 (callScopes 0 [⟨"x", .required⟩] code []) start.made.toList hoistWorld =
        .ok .next v ∧
      readName (callScopes 0 [⟨"x", .required⟩] code []) "x" v = .ok (.number (.int 1)) v := by
  have named (p : Progress) (names : p.names = (hoistStart 2).names) : nameOf 2 hoistContext p = .ok ("y", p) := by
    obtain ⟨typing, _, made⟩ := p
    cases names
    rfl
  have lowered := hoistCode named
  obtain ⟨start, rest, began, split, keeps⟩ :=
    prologueKeepsArguments (hoistDistinct 2) (hoistParameters 2) (by decide) lowered
  have entered : (Target.bindParams [.number (.int 1)] [⟨"x", .required⟩] >>= Target.Run.newFrame) {} =
    .ok 0 hoistWorld := rfl
  obtain ⟨v, ran, reads⟩ := keeps entered (Target.outside 1) 1 []
  obtain ⟨value, read, is⟩ := reads 0 ⟨"x", .required⟩ 1 (.one (.number (.int 1))) rfl rfl rfl
  have other : 1 ∉ hoistedBy (hoistStart 2).typing (hoistBody "y") := by
    change 1 ∉ symbolsOf (hoistTyping 2) [plainMark 1]
    rw [hoistDeclares]
    decide
  rw [if_neg other] at is
  cases is
  exact ⟨_, _, start, rest, lowered, began, split, v, entered, ran, read⟩

/-- A variable that shares the symbol of the parameter takes the argument away. -/
theorem sameVariableTakes : ∃ code r start rest,
    functionBody false (lowerBody [⟨"x", .required⟩] [1] (hoistBody "x")) hoistContext (hoistStart 1) = .ok (code, r) ∧
    prologue [⟨"x", .required⟩] [1] (hoistBody "x") hoistContext (hoistStart 1) = .ok ((), start) ∧
    code = start.made.toList ++ rest ∧
    ∃ v, (Target.bindParams [.number (.int 1)] [⟨"x", .required⟩] >>= Target.Run.newFrame) {} = .ok 0 hoistWorld ∧
      execAll (Target.outside 1) 1 (callScopes 0 [⟨"x", .required⟩] code []) start.made.toList hoistWorld =
        .ok .next v ∧
      readName (callScopes 0 [⟨"x", .required⟩] code []) "x" v = .ok .undefined v := by
  have named (p : Progress) (names : p.names = (hoistStart 1).names) : nameOf 1 hoistContext p = .ok ("x", p) := by
    obtain ⟨typing, _, made⟩ := p
    cases names
    rfl
  let ended : Target.World := { frames := #[[("x", .undefined)]] }
  exact ⟨_, _, _, [], hoistCode named, hoistPrologue named, rfl, ended, rfl, rfl, rfl⟩

end Fragment.Emit
