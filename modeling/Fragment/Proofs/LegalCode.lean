import Fragment.Proofs.Scoping
import Fragment.Proofs.Shapes

/-! The code of a file keeps the rules of the output language.
The file gives one expression; in the shape of a closure its code stands in a function of its own, so it
must not take names from there. The order of parameters is not checked before: code keeps it as it is, and
breaks a rule if a required parameter follows an optional one. -/
namespace Fragment.Emit

open Source (Mark Expr Param Body Stmt)
open Typing (SymbolId State)
open Target (Lawful)
open Lowering

/-! The code of a file with one expression -/

section File

variable {s : State} {c : Context} {m : Mark} {e : Expr}

theorem statementsSteps (ruled : ScopedExpr s c [] e) :
    Steps s c (fun body xs n => xs = [] ∧ Sound c n [] [] body) (fileStatements [.expr m e]) := by
  refine collectedSteps ?_
  simp only [hoistedInAll, hoistedIn, List.append_nil, hoistNone, lowerDeclarations, lowerStmts, topExpression, pure_bind,
    bind_assoc]
  have line (value : Target.Expr) : Lays s c [] [] (push (.assign Target.completionName value)) :=
    pushLays rfl (fun _ => rfl) fun _ _ => rfl
  refine (line _).before fun _ => (lowerExprLays [] e ruled).before fun v => ?_
  exact (line v).before fun _ => .pure _

theorem fileSteps {file : Source.SourceFile} (single : file.statements = [.expr m e]) (kind : ModuleKind)
    (ruled : ScopedExpr s c [] e)
    (outermost : kind = .closure → ∀ x ∈ foreignSymbols s (assignedIn e) [], c.isOutermost x) :
    Steps s c (fun code _ _ => Lawful [] code.body) (lowerFile file kind) := by
  cases kind with
  | script =>
    simp only [lowerFile, single]
    refine (statementsSteps ruled).bind fun body xs _ => Steps.pure ?_
    rintro n _ ⟨-, sound⟩
    exact sound.lawful [] (Covers.none _)
  | closure =>
    have known : ∀ x ∈ foreignSymbols s (assignedInStmts [.expr m e]) [], c.isOutermost x ∨ x ∈ [] := by
      simpa [assignedInStmts, assignedInStmt] using outermost rfl
    simp only [lowerFile, single, declaredInAll, declaredIn, declaredSymbols, List.append_nil, List.filterMapM_nil,
      pure_bind]
    have start : Opens s c [] [] [] [] (bindingLines (assignedInStmts [.expr m e]) []) := bindingLinesSteps known
    refine (collectedSteps start).bind fun lines xs _ => ?_
    refine (statementsSteps ruled).bind fun body ys _ => Steps.pure ?_
    rintro n distinct ⟨-, sound⟩ ⟨-, opened⟩
    have last : Sound c n [] [] [.ret (.name Target.completionName)] :=
      .single rfl (fun _ _ => .single (fun _ => rfl) fun _ => rfl) (Covers.none _)
    have whole : Opened c n [] [] ([] ++ [] ++ []) [] _ := (opened.append sound).append last
    have around : Lawful [] [.define Target.moduleName false [] _] :=
      whole.define distinct rfl (Covers.none _) (List.Subset.refl _) (Covers.none _) _ _
    exact around.append (.single (fun _ => rfl) fun _ => rfl)

theorem libraryNamesNodup (s : State) : ((librarySymbols s).map (·.1)).Nodup := by
  have names (scope : Option Typing.Scope) : ((scope.elim [] (·.names.toList)).map (·.1)).Nodup := by
    cases scope with
    | none => simp
    | some scope =>
      refine List.pairwise_map.mpr (Std.HashMap.distinct_keys_toList.imp fun apart => ?_)
      simpa using apart
  exact (names _).sublist (List.filter_sublist.map _)

theorem evaluateLegal {code : Target.Module} (legal : code.violation? = none) (libraries : List String)
    (world : Target.World) (refusal : CompileError) : Request.evaluate code libraries world ≠ .error (.error refusal) := by
  simp only [Request.evaluate, Request.checkLegal, legal, bind, Except.bind]
  cases (code.run libraries).run world <;> nofun

end File

/-- The code of one expression breaks no rule, in both shapes, if all functions in the expression keep the rules and
checking has found the types that code depends on. Requests for accepted fragments get this code, and its evaluation is
not refused. -/
theorem scopedCodeLegal {file : Source.SourceFile} {m : Mark} {e : Expr} (single : file.statements = [.expr m e])
    {typing checked after : State} {kind : ModuleKind} {code : Target.Module}
    (check : (Typing.Check.checkFile file).run typing = .ok ((), checked))
    (ruled : ScopedExpr checked (expressionContext kind checked) [] e)
    (outermost : kind = .closure → ∀ x ∈ foreignSymbols checked (assignedIn e) [],
      (expressionContext kind checked).isOutermost x)
    (made : emitFile file kind typing = .ok (code, after)) :
    code.violation? = none ∧ (∀ libraries world refusal, Request.evaluate code libraries world ≠ .error (.error refusal)) ∧
      ∀ source options declarations, Accepts source options declarations file typing →
        Request.compile source { options with module := kind } declarations = .ok code := by
  have legal : code.violation? = none := by
    rw [emitFileRun single check] at made
    split at made
    case h_2 => cases made
    case h_1 code p run =>
      cases made
      have distinct : Distinct (expressionContext kind checked) (expressionStart checked).names :=
        startDistinct (libraryNamesNodup checked)
      obtain ⟨-, distinct, -, added, -, holds⟩ :=
        fileSteps single kind ruled outermost false _ _ _ (by simp) rfl distinct run
      have lawful := holds _ distinct (Later.refl _) 2
      simp [Target.Module.violation?, lawful.1, lawful.2]
  refine ⟨legal, evaluateLegal legal, ?_⟩
  rintro source options declarations ⟨_, s, accepted, root, rfl⟩
  exact Request.compileShaped accepted root made

/-! Files with one function and no libraries -/

section Single

def bareContext : Context := { kind := .closure, librarySymbols := [], moduleSymbols := [] }

def firstNames : Names :=
  { used := ["__fn_1", Target.helpersName, Target.completionName, Target.moduleName], counters := [("fn_", 1)] }

/-- The names in use once a symbol has been given its name. -/
def Names.giving (n : Names) (x : SymbolId) (name : String) : Names :=
  { n with used := name :: n.used, symbols := (x, name) :: n.symbols }

variable {s : State} {n : Names} {made : Array Target.Stmt}

theorem temporaryRun (c : Context) (p : Progress) : temporary .function c p =
    .ok ((p.names.temporary Temporary.function.label).1, { p with names := (p.names.temporary Temporary.function.label).2 }) := rfl

theorem declaredRun (mark : Mark) (c : Context) (p : Progress) :
    declaredSymbol? mark c p = .ok (p.typing.symbolOf[mark.id]?, p) := rfl

theorem givingRun {x : SymbolId} {name : String} (symbol : (s.symbol x).name = name) (fresh : n.symbols.lookup x = none)
    (free : n.freeFrom (baseName name) (n.used.length + 2) 0 = some name) :
    nameOf x bareContext ⟨s, n, made⟩ = .ok (name, ⟨s, n.giving x name, made⟩) := by
  have own : bareContext.libraryName? x = none := rfl
  simp only [givenNameRun own, symbol, Names.forSymbol, fresh, free, Option.map_some]
  rfl

def functionModule (isAsync : Bool) (params : List Target.Param) (inside : List Target.Stmt) : Target.Module :=
  ⟨rootPath, Target.Parts.closure ⟨[], [.define "__fn_1" isAsync params inside], .name "__fn_1"⟩⟩

/-- The code of a file with one function, by the code of its parameters and of its body. -/
theorem functionMade {m mark : Mark} {params : List Param} {body : Body} {result : Option Source.TypeNode}
    {isAsync : Bool} {ps : List Target.Param} {own : List SymbolId} {inside : List Target.Stmt} {n' : Names}
    (checked : s.checkedFiles = [rootPath]) (libraries : s.scopes = State.initial.scopes)
    (first : ∀ made, parameters params bareContext ⟨s, firstNames, made⟩ = .ok ((ps, own), ⟨s, n, made⟩))
    (rest : ∀ made, functionBody isAsync (lowerBody ps own body) bareContext ⟨s, n, made⟩ = .ok (inside, ⟨s, n', made⟩)) :
    emitFile ⟨rootPath, [.expr m (.arrow mark params body result isAsync)], []⟩ .closure s =
      .ok (functionModule isAsync ps inside, s) := by
  have check : (Typing.Check.checkFile ⟨rootPath, [.expr m (.arrow mark params body result isAsync)], []⟩).run s =
      .ok ((), s) := by
    have known : s.checkedFiles.contains rootPath = true := by simp [checked]
    simp only [Typing.Check.checkFile, StateT.run_bind, StateT.run_get, pure_bind, known, ↓reduceIte]
    rfl
  have context : expressionContext .closure s = bareContext := by
    simp only [expressionContext, noLibraries libraries, bareContext]
  have start : expressionStart s = ⟨s, Names.start [], #[]⟩ := by
    simp only [expressionStart, noLibraries libraries, List.map_nil]
  have temporary : (Names.start []).temporary Temporary.function.label = ("__fn_1", firstNames) := rfl
  rw [emitFileRun rfl check, context, start]
  simp only [lowerFile, declaredInAll, declaredIn, List.append_nil, declaredSymbols, List.filterMapM_nil, pure_bind,
    assignedInStmts, assignedInStmt, assignedIn, bindRun, collectedRun, unboundRun, fileStatements, hoistedInAll, hoistedIn,
    hoistNone, lowerDeclarations, lowerStmts, topExpression, lowerExpr, pureRun, push, modifyRun, temporaryRun, temporary,
    first, rest]
  rfl

end Single

/-! A function that assigns a variable of the function around it -/

def storeMark (id : Nat) : Mark := ⟨id, ⟨⟨1, 1⟩, ⟨1, 39⟩⟩⟩

def storeInner : Expr :=
  .arrow (storeMark 6) [] (.expr (.assign (storeMark 5) none (.ident (storeMark 3) "q") (.boolean (storeMark 4) false)))
    none false

def storeBody : List Stmt := [
  .var (storeMark 2) .lexical [.mk (storeMark 1) "q" none (some (.boolean (storeMark 0) true))] false,
  .expr (storeMark 7) storeInner]

/-- The file of the fragment `() => { let q = true; () => q = false }`. -/
def storeFile : Source.SourceFile :=
  ⟨rootPath, [.expr (storeMark 10) (.arrow (storeMark 9) [] (.block (.mk (storeMark 8) storeBody)) none false)], []⟩

/-- What the checker knows once it has checked this file, as far as code depends on it. -/
def storeTyping : State :=
  { State.initial with
    symbols := State.initial.symbols.push { flags := Typing.SymbolFlags.blockVariable, name := "q" }
    symbolOf := ({} : Std.HashMap Nat SymbolId).insert 1 1
    resolvedSymbols := ({} : Std.HashMap Nat SymbolId).insert 3 1
    nodeTypes := ((({} : Std.HashMap Nat Typing.TypeId).insert 3 Typing.booleanType).insert 4 Typing.falseType).insert 5
      Typing.falseType
    checkedFiles := [rootPath] }

def storeNames : Names :=
  { used := ["__fn_2", "q", "__fn_1", Target.helpersName, Target.completionName, Target.moduleName]
    symbols := [(1, "q")], counters := [("fn_", 2), ("fn_", 1)] }

def storeCode : List Target.Stmt := [
  .assign "q" (.bool true),
  .define "__fn_2" false [] [.nonlocals ["q"], .ret (.bind "q" (.bool false))],
  .expr (.name "__fn_2")]

theorem storeDeclared : storeTyping.symbolOf[(storeMark 1).id]? = some 1 := by simp [storeTyping, storeMark]

theorem storeResolved : symbolAt storeTyping (storeMark 3) = some 1 := by simp [symbolAt, storeTyping, storeMark]

theorem storeAssigned : [storeMark 3].filterMap (symbolAt storeTyping) = [1] := by simp [storeResolved]

section Store

variable (made : Array Target.Stmt)

theorem storeNamed : nameExpr (storeMark 3) "q" bareContext ⟨storeTyping, storeNames, made⟩ =
    .ok (.name "q", ⟨storeTyping, storeNames, made⟩) := by
  have asked : ask (Typing.Check.symbolAt? (storeMark 3)) bareContext ⟨storeTyping, storeNames, made⟩ =
      .ok (some 1, ⟨storeTyping, storeNames, made⟩) := by
    change Except.ok (symbolAt storeTyping (storeMark 3), _) = _
    rw [storeResolved]
  simp only [nameExpr, bindRun, asked]
  rfl

theorem storeBorrows : bindingLines [storeMark 3] [] bareContext ⟨storeTyping, storeNames, made⟩ =
    .ok ((), ⟨storeTyping, storeNames, made.push (.nonlocals ["q"])⟩) := by
  have foreign : [(1 : SymbolId)].eraseDups.filter (fun x => !([] : List SymbolId).contains x &&
      x ≠ Typing.undefinedSymbol) = [1] := by decide
  have named : nameOf 1 bareContext ⟨storeTyping, storeNames, made⟩ = .ok ("q", ⟨storeTyping, storeNames, made⟩) := rfl
  have sorted : sortedNames ["q"] = ["q"] := by simp [sortedNames]
  simp only [bindingLines, bindRun, symbolsAtRun, storeAssigned, foreign, readRun, List.mapM_cons, List.mapM_nil, named,
    pureRun]
  change Except.ok ((), (⟨storeTyping, storeNames, made.push (.nonlocals (sortedNames ["q"]))⟩ : Progress)) = _
  rw [sorted]

theorem storeInnerRun : lowerExpr storeInner bareContext ⟨storeTyping, firstNames.giving 1 "q", made⟩ =
    .ok (.name "__fn_2", ⟨storeTyping, storeNames, made.push
      (.define "__fn_2" false [] [.nonlocals ["q"], .ret (.bind "q" (.bool false))])⟩) := by
  have temporary : (firstNames.giving 1 "q").temporary Temporary.function.label = ("__fn_2", storeNames) := rfl
  have bare (p : Progress) : parameters [] bareContext p = .ok (([], []), p) := rfl
  have uncollected (p : Progress) : collectLine [] bareContext p = .ok ((), p) := rfl
  have body : functionBody false (lowerBody [] [] (.expr
      (.assign (storeMark 5) none (.ident (storeMark 3) "q") (.boolean (storeMark 4) false))))
      bareContext ⟨storeTyping, storeNames, made⟩ =
      .ok ([.nonlocals ["q"], .ret (.bind "q" (.bool false))], ⟨storeTyping, storeNames, made⟩) := by
    change suite _ bareContext _ = _
    simp only [suite, bindRun, collectedRun, lowerBody, lowerExpr, assignedIn, List.append_nil, targetName, storeBorrows,
      uncollected, storeNamed]
    rfl
  simp only [storeInner, lowerExpr, bindRun, temporaryRun, temporary, bare, body]
  rfl

theorem storeBodyRun : functionBody false (lowerBody [] [] (.block (.mk (storeMark 8) storeBody))) bareContext
    ⟨storeTyping, firstNames, made⟩ = .ok (storeCode, ⟨storeTyping, storeNames, made⟩) := by
  have start : blockStart [] [] storeBody bareContext ⟨storeTyping, firstNames, #[]⟩ =
      .ok ((), ⟨storeTyping, firstNames, #[]⟩) := by
    have own : declaredInAll storeBody = [storeMark 1] := rfl
    simp only [blockStart, declaredSymbols, List.filterMapM_cons, bindRun, own, declaredRun, storeDeclared]
    rfl
  have functions (p : Progress) : lowerDeclarations storeBody bareContext p = .ok ((), p) := rfl
  have free : firstNames.freeFrom (baseName "q") (firstNames.used.length + 2) 0 = some "q" := by decide
  have declares : lowerStmt .block
      (.var (storeMark 2) .lexical [.mk (storeMark 1) "q" none (some (.boolean (storeMark 0) true))] false) bareContext
      ⟨storeTyping, firstNames, #[]⟩ = .ok ((), ⟨storeTyping, firstNames.giving 1 "q", #[.assign "q" (.bool true)]⟩) := by
    simp only [lowerStmt, Bool.false_eq_true, ↓reduceIte, lowerDeclarators, variableName, lowerExpr, bindRun, declaredRun,
      storeDeclared, pureRun, givingRun (show (storeTyping.symbol 1).name = "q" from rfl) rfl free]
    rfl
  have function : lowerStmt .block (.expr (storeMark 7) storeInner) bareContext
      ⟨storeTyping, firstNames.giving 1 "q", #[.assign "q" (.bool true)]⟩ =
      .ok ((), ⟨storeTyping, storeNames, storeCode.toArray⟩) := by
    have other : ∀ m op mark name value, storeInner = .assign m op (.ident mark name) value → False := by
      rintro _ _ _ _ _ ⟨⟩
    simp only [lowerStmt, bindRun, storeInnerRun]
    rfl
  change suite _ bareContext _ = _
  simp only [suite, bindRun, collectedRun, lowerBody, start, functions]
  simp only [storeBody, lowerStmts, bindRun, declares, function, pureRun]
  rfl

end Store

theorem storeMade : emitFile storeFile .closure storeTyping = .ok (functionModule false [] storeCode, storeTyping) :=
  functionMade rfl rfl (fun _ => rfl) storeBodyRun

theorem storeTyped : Typed storeTyping (.ident (storeMark 3) "q") ∧ Typed storeTyping (.boolean (storeMark 4) false) ∧
    ∀ target value, Typed storeTyping (.assign (storeMark 5) none target value) := by
  simp [Typed, Expr.mark, storeTyping, storeMark]

theorem storeRuled (c : Context) :
    ScopedExpr storeTyping c [] (.arrow (storeMark 9) [] (.block (.mk (storeMark 8) storeBody)) none false) := by
  have bound : symbolsOf storeTyping (boundMarks storeBody) = [1] := by
    have marks : boundMarks storeBody = [storeMark 1] := rfl
    simp [symbolsOf, marks, storeDeclared]
  have foreign : foreignSymbols storeTyping [storeMark 3] [] = [1] := by
    rw [foreignSymbols, storeAssigned]
    decide
  have outside : Rules storeTyping c [] [] false (assignedInStmts storeBody) (declaredInAll storeBody) :=
    ⟨rfl, by simp [foreignSymbols, show assignedInStmts storeBody = [] from rfl], by simp⟩
  have inside : Rules storeTyping c [1] [] false [storeMark 3] [] := ⟨rfl, by simp [symbolsOf, foreign], by simp⟩
  obtain ⟨target, value, whole⟩ := storeTyped
  simp only [ScopedExpr, ScopedBody, ScopedBlock, List.map_nil, bound]
  refine ⟨outside, ?_⟩
  simp only [storeBody, storeInner, ScopedStmts, ScopedStmt, ScopedDeclarators, ScopedExpr, ScopedBody]
  exact ⟨⟨trivial, trivial⟩, ⟨inside, whole _ _, ⟨target, value⟩, trivial, trivial⟩, trivial⟩

/-- The inner function takes the variable from the function around it, which binds it. -/
theorem storeCodeLegal : emitFile storeFile .closure storeTyping = .ok (functionModule false [] storeCode, storeTyping) ∧
    (functionModule false [] storeCode).violation? = none ∧ ∀ libraries world refusal,
      Request.evaluate (functionModule false [] storeCode) libraries world ≠ .error (.error refusal) := by
  have outermost : foreignSymbols storeTyping (assignedIn (.arrow (storeMark 9) [] (.block (.mk (storeMark 8) storeBody))
    none false)) [] = [] := by
      unfold assignedIn
      simp [foreignSymbols]
  obtain ⟨legal, runs, -⟩ := scopedCodeLegal rfl rfl (storeRuled _) (by simp [outermost]) storeMade
  exact ⟨storeMade, legal, runs⟩

/-! A required parameter after an optional one -/

def orderMark (id : Nat) : Mark := ⟨id, ⟨⟨1, 1⟩, ⟨1, 32⟩⟩⟩

def orderParams : List Param := [
  .mk (orderMark 1) "a" (some (.ref (orderMark 0) "number" [])) true false,
  .mk (orderMark 3) "b" (some (.ref (orderMark 2) "number" [])) false false]

/-- The file of the fragment `(a?: number, b: number) => true`. -/
def orderFile : Source.SourceFile :=
  ⟨rootPath, [.expr (orderMark 6) (.arrow (orderMark 5) orderParams (.expr (.boolean (orderMark 4) true)) none false)], []⟩

def orderTyping : State :=
  let number (name : String) : Typing.Symbol :=
    { flags := Typing.SymbolFlags.functionVariable, name, type := some Typing.numberType }
  { State.initial with
    symbols := State.initial.symbols ++ #[number "a", number "b"]
    symbolOf := (({} : Std.HashMap Nat SymbolId).insert 1 1).insert 3 2
    checkedFiles := [rootPath] }

theorem orderParameters (made : Array Target.Stmt) :
    parameters orderParams bareContext ⟨orderTyping, firstNames, made⟩ =
      .ok (([⟨"a", .optional⟩, ⟨"b", .required⟩], [1, 2]),
        ⟨orderTyping, (firstNames.giving 1 "a").giving 2 "b", made⟩) := by
  have first : orderTyping.symbolOf[(orderMark 1).id]? = some 1 := by
    simp [orderTyping, orderMark, Std.HashMap.getElem_insert]
  have second : orderTyping.symbolOf[(orderMark 3).id]? = some 2 := by simp [orderTyping, orderMark]
  have free : firstNames.freeFrom (baseName "a") (firstNames.used.length + 2) 0 = some "a" ∧
      (firstNames.giving 1 "a").freeFrom (baseName "b") ((firstNames.giving 1 "a").used.length + 2) 0 = some "b" := by
    decide
  have named : nameOf 1 bareContext ⟨orderTyping, firstNames, made⟩ =
      .ok ("a", ⟨orderTyping, firstNames.giving 1 "a", made⟩) := givingRun rfl rfl free.1
  have named' : nameOf 2 bareContext ⟨orderTyping, firstNames.giving 1 "a", made⟩ =
      .ok ("b", ⟨orderTyping, (firstNames.giving 1 "a").giving 2 "b", made⟩) := givingRun rfl rfl free.2
  simp only [parameters, orderParams, Param.mark, List.mapM_cons, List.mapM_nil, bindRun, pureRun, declaredRun, first,
    second, named, named']
  rfl

/-- The code keeps the order of the parameters, which the output language does not allow. -/
theorem orderBroken : ∃ code, emitFile orderFile .closure orderTyping = .ok (code, orderTyping) ∧
    ∀ libraries world, Request.evaluate code libraries world = .error (.error (.emission
      "generated code does not compile: non-default argument follows default argument (line 4)")) :=
  ⟨_, functionMade rfl rfl orderParameters fun _ => rfl, fun _ _ => rfl⟩

end Fragment.Emit
