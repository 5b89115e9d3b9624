import Fragment.Proofs.Lawful
import Fragment.Proofs.Emitted
import Fragment.Proofs.Reshape

/-! Both shapes of the code of one expression.
The code in a function replies like the code at the outermost level, if no library declares a name
like those that the code keeps for itself and the function has no other variables than such names. -/
namespace Fragment.Emit

open Target (Layout Parts Module usesIn)

open Lowering

section Statements

variable {kept : List String}

theorem hoistNone : hoistLines [] = pure () := by
  simp [hoistLines, declaredSymbols]

theorem topExpression (m : Source.Mark) (e : Source.Expr) :
    lowerStmt .top (.expr m e) = lowerExpr e >>= fun value => push (.assign Target.completionName value) := by
  obtain ⟨inside, -⟩ | lowered := exprStmtLowered .top m e
  · exact absurd rfl inside
  · exact lowered

/-- The statements of a file with one expression. -/
theorem expressionStatements (reserved : ∀ x ∈ kept, startsWithUnderscores x = true) (m : Source.Mark) (e : Source.Expr) :
    Finds (fun ss => ∃ functions value, ss = (⟨[], functions, value⟩ : Parts).statements ∧
      (∀ s ∈ functions, s.defined?.isSome ∧ s.Uses Layout.Plain (· ∉ kept)) ∧ Fit kept (definedIn functions) value)
      (fileStatements [.expr m e]) := by
  refine collectedFinds ?_
  simp only [hoistedInAll, hoistedIn, List.append_nil, hoistNone, lowerDeclarations, lowerStmts, topExpression, pure_bind,
    bind_assoc]
  refine (pushMakes _).bind ?_
  rintro _ _ rfl
  refine Makes.bind (lowerExprYields reserved e) fun value functions made => ?_
  refine (pushMakes _).bind ?_
  rintro _ _ rfl
  exact Makes.pure ⟨functions, value, by simp [Parts.statements], made⟩

end Statements

/-! The names that the function takes from the outermost level -/

section Binding

/-- Names that are all taken from the outermost level are names of libraries. -/
theorem placedNamesRun {c : Context} (calm : Calm c) (foreign : List Typing.SymbolId) {p q : Progress}
    {named : List (Bool × String)} (run : placedNames c foreign c p = .ok (named, q))
    (isGlobal : ∀ r ∈ named, r.1 = true) : q = p := by
  induction foreign generalizing p named with
  | nil =>
    cases run
    rfl
  | cons x rest ih =>
    obtain ⟨name, r, names, first, later, rfl⟩ := placedNamesCons run
    have isLibrary : (c.libraryName? x).isSome := by
      have := isGlobal _ List.mem_cons_self
      simpa [Context.isOutermost, calm.declares] using this
    obtain ⟨_, found⟩ := Option.isSome_iff_exists.mp isLibrary
    rw [libraryNameRun found] at first
    cases first
    exact ih later fun r hr => isGlobal r (List.mem_cons_of_mem _ hr)

theorem globalLinesRun {c : Context} (calm : Calm c) {assigned : List Source.Mark} {own : List Typing.SymbolId}
    {p q : Progress} (run : bindingLines assigned own c p = .ok ((), q))
    (none : ∀ names, Target.Stmt.nonlocals names ∉ q.made.toList) : { q with made := p.made } = p := by
  obtain ⟨named, r, placed, typing, names, made⟩ := bindingLinesRun run
  have isGlobal : ∀ s ∈ named, s.1 = true := by
    refine Decidable.byContradiction fun some => ?_
    refine none (sortedNames ((named.filter (!·.1)).map (·.2))) ?_
    simp only [made, borrowLines]
    simp_all
  cases placedNamesRun calm _ placed isGlobal
  simp only [typing, names]

end Binding

/-- The variables of the function around a module. -/
def variablesOf (m : Module) : List String :=
  match m.body with
  | .define _ _ params body :: _ => Target.localNames params body
  | _ => []

theorem sortedEmpty (names : List String) : (sortedNames names).isEmpty = names.isEmpty := by
  cases names <;> simp [sortedNames, ← List.length_eq_zero_iff]

/-- A module with a function around its statements, which takes some names from the outermost level. -/
def enclosed (file : String) (globals : List String) (statements : List Target.Stmt) : Module :=
  ⟨file, [.define Target.moduleName false [] (borrowLines globals [] ++ statements ++ [.ret (.name Target.completionName)]),
    .assign Target.completionName (.call (.name Target.moduleName) [])]⟩

theorem enclosedParts (file : String) (globals : List String) (functions : List Target.Stmt) (value : Target.Expr) :
    enclosed file globals (⟨[], functions, value⟩ : Parts).statements =
      ⟨file, (⟨sortedNames globals, functions, value⟩ : Parts).closure⟩ := by
  simp [enclosed, Parts.closure, Parts.inside, Parts.statements, borrowLines, sortedEmpty]

section Closure

variable {file : Source.SourceFile} {m : Source.Mark} {e : Source.Expr} {c : Context} {p after : Progress}
  {closure : Module}

/-- In legal code the function takes names of libraries only, and its statements are made as if it were not there. -/
theorem closureStatements (single : file.statements = [.expr m e]) (calm : Calm c) (tidy : Tidy p.names)
    (run : lowerFile file .closure c p = .ok (closure, after)) (legal : closure.violation? = none) :
    ∃ globals ss, (∀ x ∈ globals, startsWithUnderscores x = false) ∧
      fileStatements [.expr m e] c p = .ok (ss, after) ∧ closure = enclosed file.name globals ss := by
  simp only [lowerFile, single, declaredInAll, declaredIn, declaredSymbols, List.append_nil, List.filterMapM_nil, pure_bind,
    bindRun, collectedRun] at run
  cases bound : bindingLines (assignedInStmts [.expr m e]) [] c { p with made := #[] } with
  | error f => simp [bound] at run
  | ok r =>
    obtain ⟨⟨⟩, q⟩ := r
    simp only [bound] at run
    split at run
    case h_2 => cases run
    case h_1 ss r made =>
      simp only [pureRun, Except.ok.injEq, Prod.mk.injEq] at run
      obtain ⟨rfl, rfl⟩ := run
      obtain ⟨_, _, lines, globals, nonlocals, rfl, plain⟩ :=
        (bindingLinesMakes _ _).makes c { p with made := #[] } () q calm tidy bound
      simp only [List.nil_append] at lines
      rw [lines] at legal ⊢
      have alone : nonlocals = [] := by
        simp only [Module.violation?, Option.or_eq_none_iff, Target.nameViolationIn, Target.Stmt.nameViolation,
          List.append_assoc] at legal
        exact legalBorrows legal.2.1.1
      subst alone
      have same : { q with made := p.made } = p := by
        have kept := globalLinesRun calm bound (by
          rw [lines]
          intro names
          simp only [borrowLines]
          split <;> simp)
        exact congrArg (fun r : Progress => { r with made := p.made }) kept
      rw [same] at made
      exact ⟨globals, ss, plain, made, rfl⟩

/-- The code of one expression in a function has the parts of the code at the outermost level. -/
theorem closureParts (single : file.statements = [.expr m e]) (calm : Calm c) (tidy : Tidy p.names)
    (run : lowerFile file .closure c p = .ok (closure, after)) (legal : closure.violation? = none)
    (own : ∀ x ∈ variablesOf closure, startsWithUnderscores x = true) (kind : ModuleKind) :
    ∃ parts : Parts, parts.Apart ∧ closure = ⟨file.name, parts.closure⟩ ∧
      lowerFile file .script { c with kind } p = .ok (⟨file.name, parts.statements⟩, after) := by
  obtain ⟨globals, ss, plain, made, rfl⟩ := closureStatements single calm tidy run legal
  have shape := expressionStatements own m e
  obtain ⟨_, _, _, _, functions, value, rfl, definitions, fit⟩ := shape.makes c p ss after calm tidy made
  rw [enclosedParts] at own definitions fit ⊢
  refine ⟨⟨sortedNames globals, functions, value⟩, ⟨own, ?_, definitions, fit.uses, ?_⟩, rfl, ?_⟩
  · intro member
    exact absurd (plain _ (List.mem_mergeSort.mp member)) (by decide)
  · exact fit.settles _ (List.subset_append_left _ _)
  · have made := (shape.alike c kind p calm tidy).trans made
    simp only [lowerFile, single, bindRun, made]
    rfl

end Closure

theorem startTidy (libraries : List String) : Tidy (Names.start libraries) := by simp [Tidy, Names.start]

/-- What is known when the code of a file with one expression is made. -/
def expressionContext (kind : ModuleKind) (checked : Typing.State) : Context :=
  { kind, librarySymbols := librarySymbols checked, moduleSymbols := [] }

def expressionStart (checked : Typing.State) : Progress :=
  { typing := checked, names := Names.start ((librarySymbols checked).map (·.1)) }

theorem emitFileRun {file : Source.SourceFile} {m : Source.Mark} {e : Source.Expr}
    (single : file.statements = [.expr m e]) {typing checked : Typing.State}
    (check : (Typing.Check.checkFile file).run typing = .ok ((), checked)) (kind : ModuleKind) :
    emitFile file kind typing = match lowerFile file kind (expressionContext kind checked) (expressionStart checked) with
      | .ok (code, p) => .ok (code, p.typing)
      | .error f => .error f := by
  simp only [emitFile, check, single]
  change (lowerFile file kind (expressionContext kind checked) (expressionStart checked)).bind _ = _
  cases lowerFile file kind (expressionContext kind checked) (expressionStart checked) <;> rfl

/-- A request whose fragment is accepted: the file of the fragment, and what the checker then knows. -/
def Accepts (source : String) (options : Options) (declarations : Files) (file : Source.SourceFile)
    (typing : Typing.State) : Prop :=
  ∃ e s, (Request.openFragment source options declarations >>= Request.acceptedExpr) = .ok (e, s) ∧
    s.compilation.source? rootPath = some file ∧ s.typing = typing

/-- One module replies like another, to its evaluation and to every call of what it gave, up to the numbers of
functions; unless its evaluation comes to the limit of nested calls. -/
def RepliesLike (m other : Module) : Prop :=
  ∀ libraries calls, Target.stopped (m.replies libraries calls) = true ∨
    ∃ first, m.replies libraries calls = (other.replies libraries calls).map (Target.Reply.renumber (Target.shift first))

/-- The code of one expression replies alike in both shapes, and it is the code that requests for these shapes get. -/
theorem shapesReplyAlike {file : Source.SourceFile} {m : Source.Mark} {e : Source.Expr}
    (single : file.statements = [.expr m e]) {typing checked after : Typing.State} {closure : Module}
    (check : (Typing.Check.checkFile file).run typing = .ok ((), checked))
    (libraries : ∀ s ∈ librarySymbols checked, startsWithUnderscores s.1 = false)
    (made : emitFile file .closure typing = .ok (closure, after)) (legal : closure.violation? = none)
    (own : ∀ x ∈ variablesOf closure, startsWithUnderscores x = true) :
    ∃ script, emitFile file .script typing = .ok (script, after) ∧ RepliesLike closure script ∧
      ∀ source options declarations, Accepts source options declarations file typing →
        Request.compile source { options with module := .closure } declarations = .ok closure ∧
        Request.compile source { options with module := .script } declarations = .ok script := by
  have calm : Calm (expressionContext .closure checked) := ⟨rfl, libraries⟩
  have run := made
  rw [emitFileRun single check] at run
  split at run
  case h_2 => cases run
  case h_1 code p run' =>
    cases run
    obtain ⟨parts, apart, rfl, script⟩ := closureParts single calm (startTidy _) run' legal own .script
    have made' : emitFile file .script typing = .ok (⟨file.name, parts.statements⟩, p.typing) := by
      rw [emitFileRun single check]
      change lowerFile file .script (expressionContext .script checked) (expressionStart checked) = _ at script
      rw [script]
    refine ⟨⟨file.name, parts.statements⟩, made', Target.closureReplies apart file.name, ?_⟩
    rintro source options declarations ⟨_, s, accepted, root, rfl⟩
    exact ⟨Request.compileShaped accepted root made, Request.compileShaped accepted root made'⟩

/-- The file of the fragment `(() => () => ({ y: true }))()`. -/
def nestedFile : Source.SourceFile :=
  let mark (id : Nat) : Source.Mark := ⟨id, ⟨⟨1, 1⟩, ⟨1, 31⟩⟩⟩
  let result : Source.Expr := .object (mark 2) [.mk (mark 1) "y" (.boolean (mark 0) true) false]
  ⟨rootPath, [.expr (mark 6) (.call (mark 5)
    (.arrow (mark 4) [] (.expr (.arrow (mark 3) [] (.expr result) none false)) none false) [])], []⟩

/-- What the checker knows once it has checked this file. -/
def nestedTyping : Typing.State := { Typing.State.initial with checkedFiles := [rootPath] }

def nestedParts : Parts where
  globals := []
  functions := [.define "__fn_1" false [] [
    .define "__fn_2" false [] [.ret (.dict [("y", .bool true)])],
    .ret (.name "__fn_2")]]
  value := .call (.name "__fn_1") []

/-- Without libraries no symbol belongs to one. -/
theorem noLibraries {s : Typing.State} (scopes : s.scopes = Typing.State.initial.scopes) : librarySymbols s = [] := by
  simp only [librarySymbols, scopes]
  refine List.filter_eq_nil_iff.mpr ?_
  rintro ⟨name, x⟩ member
  have found : (({} : Std.HashMap String Typing.SymbolId).insert "undefined" Typing.undefinedSymbol)[name]? = some x :=
    Std.HashMap.mem_toList_iff_getElem?_eq_some.mp member
  simp only [Std.HashMap.getElem?_insert, Std.HashMap.getElem?_empty] at found
  split at found <;> simp_all

theorem nestedLibraries : librarySymbols nestedTyping = [] := noLibraries rfl

theorem nestedMade : emitFile nestedFile .closure nestedTyping = .ok (⟨rootPath, nestedParts.closure⟩, nestedTyping) := by
  rw [emitFileRun rfl rfl]
  simp only [expressionContext, expressionStart, nestedLibraries]
  rfl

/-- A function that is made and called at once, and gives a function. -/
theorem nestedShapesReplyAlike :
    emitFile nestedFile .closure nestedTyping = .ok (⟨rootPath, nestedParts.closure⟩, nestedTyping) ∧
    ∃ script, emitFile nestedFile .script nestedTyping = .ok (script, nestedTyping) ∧
      RepliesLike ⟨rootPath, nestedParts.closure⟩ script := by
  obtain ⟨script, made, alike, _⟩ :=
    shapesReplyAlike rfl rfl (by simp [nestedLibraries]) nestedMade (by decide) (by decide)
  exact ⟨nestedMade, script, made, alike⟩

/-! A library that declares the name of the function around a module -/

def shadowMark (id : Nat) : Source.Mark := ⟨id, ⟨⟨1, 1⟩, ⟨1, 28⟩⟩⟩

/-- The file of the fragment `() => ({ y: __module__ })`. -/
def shadowFile : Source.SourceFile :=
  ⟨rootPath, [.expr (shadowMark 4) (.arrow (shadowMark 3) [] (.expr (.object (shadowMark 2)
    [.mk (shadowMark 1) "y" (.ident (shadowMark 0) Target.moduleName) false])) none false)], []⟩

/-- What the checker knows if a library declares a variable `__module__`. -/
def shadowTyping : Typing.State :=
  { Typing.State.initial with
    symbols := Typing.State.initial.symbols.push
      { flags := Typing.SymbolFlags.functionVariable, name := Target.moduleName,
        declarations := [.variable (.mk (shadowMark 5) Target.moduleName none none)] }
    scopes := #[{ parent := none, names := ({} : Std.HashMap String Typing.SymbolId).insert Target.moduleName 1 }]
    fileOf := ({} : Std.HashMap Nat String).insert 5 (libraryPath "es5")
    resolvedSymbols := ({} : Std.HashMap Nat Typing.SymbolId).insert 0 1
    checkedFiles := [rootPath] }

def shadowParts : Parts where
  globals := []
  functions := [.define "__fn_1" false [] [.ret (.dict [("y", .name Target.moduleName)])]]
  value := .name "__fn_1"

theorem shadowLibraries : librarySymbols shadowTyping = [(Target.moduleName, 1)] := by
  have names : (({} : Std.HashMap String Typing.SymbolId).insert Target.moduleName 1).toList = [(Target.moduleName, 1)] := by
    refine List.perm_singleton.mp (Std.HashMap.toList_insert_perm.trans ?_)
    simp
  have file : shadowTyping.fileOf[5]? = some (libraryPath "es5") := by simp [shadowTyping]
  simp only [librarySymbols]
  change List.filter _ (({} : Std.HashMap String Typing.SymbolId).insert Target.moduleName 1).toList = _
  rw [names, List.filter_cons, if_pos]
  · rfl
  · change (_ && _ && _ && ((shadowTyping.fileOf[5]?).any _ && _)) = true
    rw [file]
    decide +kernel

section Shadow

variable (kind : ModuleKind) (names : Names) (made : Array Target.Stmt)

theorem shadowNamed :
    nameExpr (shadowMark 0) Target.moduleName (expressionContext kind shadowTyping) ⟨shadowTyping, names, made⟩ =
      .ok (.name Target.moduleName, ⟨shadowTyping, names, made⟩) := by
  have resolved : shadowTyping.resolvedSymbols[0]? = some 1 := by simp [shadowTyping]
  have asked : ask (Typing.Check.symbolAt? (shadowMark 0)) (expressionContext kind shadowTyping)
      ⟨shadowTyping, names, made⟩ = .ok (some 1, ⟨shadowTyping, names, made⟩) := by
    change Except.ok ((shadowTyping.resolvedSymbols[0]?).or _, _) = _
    rw [resolved]
    rfl
  have found : (expressionContext kind shadowTyping).libraryName? 1 = some Target.moduleName := by
    simp [expressionContext, Context.libraryName?, shadowLibraries]
  simp only [nameExpr, bindRun, asked]
  rw [if_neg (by decide), bindRun, libraryNameRun found]
  rfl

theorem unboundRun (c : Context) (p : Progress) : bindingLines [] [] c p = .ok ((), p) := rfl

theorem shadowBody :
    functionBody false (lowerBody [] [] (.expr (.object (shadowMark 2)
      [.mk (shadowMark 1) "y" (.ident (shadowMark 0) Target.moduleName) false])))
      (expressionContext kind shadowTyping) ⟨shadowTyping, names, made⟩ =
    .ok ([.ret (.dict [("y", .name Target.moduleName)])], ⟨shadowTyping, names, made⟩) := by
  have uncollected (p : Progress) : collectLine [] (expressionContext kind shadowTyping) p = .ok ((), p) := rfl
  change suite _ (expressionContext kind shadowTyping) _ = _
  simp only [suite, bindRun, collectedRun, lowerBody, lowerExpr, lowerProperties, assignedIn, assignedInProperties,
    List.append_nil, unboundRun, uncollected, shadowNamed]
  rfl

theorem shadowStatements :
    fileStatements shadowFile.statements (expressionContext kind shadowTyping) (expressionStart shadowTyping) =
      .ok (shadowParts.statements,
        { expressionStart shadowTyping with names := ((expressionStart shadowTyping).names.temporary Temporary.function.label).2 }) := by
  have taken (p : Progress) : temporary .function (expressionContext kind shadowTyping) p =
      .ok ((p.names.temporary Temporary.function.label).1, { p with names := (p.names.temporary Temporary.function.label).2 }) := rfl
  have bare (p : Progress) : parameters [] (expressionContext kind shadowTyping) p = .ok (([], []), p) := rfl
  simp only [expressionStart, fileStatements, shadowFile, collectedRun, hoistedInAll, hoistedIn, List.append_nil, hoistNone,
    lowerDeclarations, lowerStmts, topExpression, lowerExpr, bindRun, pureRun, push, modifyRun, taken, bare, shadowBody]
  rw [shadowLibraries]
  rfl

end Shadow

theorem shadowScript : emitFile shadowFile .script shadowTyping = .ok (⟨rootPath, shadowParts.statements⟩, shadowTyping) := by
  rw [emitFileRun rfl rfl]
  simp only [lowerFile, bindRun, shadowStatements]
  rfl

theorem shadowClosure : emitFile shadowFile .closure shadowTyping = .ok (⟨rootPath, shadowParts.closure⟩, shadowTyping) := by
  have assigned : assignedInStmts shadowFile.statements = [] := rfl
  have declared : declaredInAll shadowFile.statements = [] := rfl
  have made := shadowStatements .closure
  rw [emitFileRun rfl rfl]
  simp only [lowerFile, declared, declaredSymbols, List.filterMapM_nil, pure_bind, assigned, bindRun, collectedRun, unboundRun]
  simp only [expressionStart] at made ⊢
  rw [made]
  rfl

/-- Which replies are values. -/
def answered (rs : List Target.Reply) : List Bool := rs.map (·.outcome.isOk)

theorem answeredRenumber (ρ : Nat → Nat) (rs : List Target.Reply) : answered (rs.map (Target.Reply.renumber ρ)) = answered rs := by
  simp only [answered, List.map_map]
  congr 1
  funext r
  simp only [Function.comp, Target.Reply.renumber]
  cases r.outcome <;> rfl

/-- In a function the name means that function, at the outermost level it has no value. -/
theorem shadowTellsShapesApart :
    emitFile shadowFile .closure shadowTyping = .ok (⟨rootPath, shadowParts.closure⟩, shadowTyping) ∧
    emitFile shadowFile .script shadowTyping = .ok (⟨rootPath, shadowParts.statements⟩, shadowTyping) ∧
    (⟨rootPath, shadowParts.closure⟩ : Module).violation? = none ∧
    ¬ RepliesLike ⟨rootPath, shadowParts.closure⟩ ⟨rootPath, shadowParts.statements⟩ := by
  refine ⟨shadowClosure, shadowScript, by decide, fun alike => ?_⟩
  have closure : answered ((⟨rootPath, shadowParts.closure⟩ : Module).replies [] [[]]) = [true, true] := by decide +kernel
  have script : answered ((⟨rootPath, shadowParts.statements⟩ : Module).replies [] [[]]) = [true, false] := by
    decide +kernel
  rcases alike [] [[]] with stopped | ⟨first, same⟩
  · have going : Target.stopped ((⟨rootPath, shadowParts.closure⟩ : Module).replies [] [[]]) = false := by decide +kernel
    simp [going] at stopped
  · rw [same, answeredRenumber, script] at closure
    cases closure

end Fragment.Emit
