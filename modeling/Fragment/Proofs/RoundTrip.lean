import Fragment.Proofs.FormulaText

/-! Printing a formula and parsing the text gives the formula back.
The text has the words of the formula as its tokens, the automaton reads a tree from them that shows the formula,
and what is built from the tree differs from the formula only in the marks of its nodes. The input begins in a seat for
an expression that a terminator ends; at its end the statement becomes a list of statements, and this the whole. -/
namespace Fragment.Source.Grammar

open Automaton hiding productions

def whole : Production := ⟨.root, [.rule .sourceFile, .token .finish], .node .root⟩

def listed : Production := ⟨.sourceFile, [.rule .statementList], .node .sourceFile⟩

def said : Production := ⟨.exprStmt, [.rule .expr, .token .terminator], .node .exprStmt⟩

def only (r r' : Rule) : Production := ⟨r, [.rule r'], .pass⟩

/-- The rules that begin where a statement does. -/
def statementRules : List Rule :=
  [.root, .sourceFile, .statementList, .statement, .exprStmt, .varStmt, .varDeclList, .returnStmt, .breakStmt,
    .continueStmt, .block, .ifStmt, .whileStmt, .functionDecl, .typeAlias, .interfaceDecl, .enumDecl, .classDecl,
    .importDecl, .ambientDecl]

set_option maxRecDepth 2048 in
theorem statementsBegin : ∀ p ∈ productions.toList, p.rule ∈ statementRules →
    p = said ∨ (∀ s ∈ p.symbols[0]?, spoken s = false) ∧
      ∀ r ∈ p.symbols[0]?.bind Symbol.rule?, r ∈ statementRules := by decide

set_option maxRecDepth 2048 in
theorem wholeFirst : productions[0]? = some whole := by decide

theorem statementMembers : ∀ p ∈ [listed, only .statementList .statement, only .statement .exprStmt, said],
    p ∈ productions.toList := by decide

set_option maxRecDepth 2048 in
theorem statementAlone : ∀ p ∈ productions.toList,
    (p.symbols[0]? = some (Symbol.rule .exprStmt) → p = only .statement .exprStmt) ∧
    (p.symbols[0]? = some (Symbol.rule .statement) → p = only .statementList .statement) ∧
    (p.symbols[0]? = some (Symbol.rule .statementList) → p = listed ∨ p.symbols[1]? = some (Symbol.rule .statement)) := by
  decide

variable {p : Production} {i j m : Nat} {k : TokenKind}

theorem startHas (has : Has productions 0 p m) : m = 0 ∧ (Tight 0 p.rule ∨ p.rule ∈ statementRules) := by
  let C (p : Production) (m : Nat) : Prop := m = 0 ∧ p ∈ productions ∧ (Tight 0 p.rule ∨ p.rule ∈ statementRules)
  have all : C p m := by
    refine startInduction someProductions (fun p there => ?_) (fun p m p' holds is at_ => ?_) has
    · cases wholeFirst.symm.trans there
      exact ⟨rfl, Array.mem_of_getElem? there, .inr (by decide)⟩
    · obtain ⟨rfl, is₁, tight | statement⟩ := holds
      · exact ⟨rfl, is, .inl (tight.opens is₁ at_)⟩
      · rcases statementsBegin p (Array.mem_toList_iff.mpr is₁) statement with rfl | ⟨_, opens⟩
        · have rule : Rule.expr = p'.rule := Symbol.rule.inj (Option.some.inj at_)
          exact ⟨rfl, is, .inl (rule ▸ ⟨0, rfl, le_rfl⟩)⟩
        · exact ⟨rfl, is, .inr (opens p'.rule (by simp [at_, Symbol.rule?]))⟩
  exact ⟨all.1, all.2.2⟩

theorem statementMember (is : p ∈ [listed, only .statementList .statement, only .statement .exprStmt, said]) :
    p ∈ productions := Array.mem_toList_iff.mp (statementMembers p is)

theorem wholeStarts : Has productions 0 whole 0 := by
  refine ⟨0, wholeFirst, ?_⟩
  rw [startItems someProductions]
  exact kernelInClosure (List.mem_singleton.mpr rfl)

-- Each of the rules around a statement may be followed by the end of the input.
theorem listedAwaits : Awaits productions 0 listed 0 .finish :=
  wholeStarts.opens (statementMember (by simp)) rfl

theorem listAwaits : Awaits productions 0 (only .statementList .statement) 0 .finish :=
  listedAwaits.opens (statementMember (by simp)) rfl

theorem statementAwaits : Awaits productions 0 (only .statement .exprStmt) 0 .finish :=
  listAwaits.opens (statementMember (by simp)) rfl

theorem saidAwaits : Awaits productions 0 said 0 .finish :=
  statementAwaits.opens (statementMember (by simp)) rfl

theorem startSeat : Seat 0 said 0 0 where
  has := saidAwaits.has
  inside := by decide
  before := rfl
  behind s is := ⟨.terminator, by decide, (Option.some.inj is).symm⟩
  others p' m' has := by
    obtain ⟨rfl, tight | statement⟩ := startHas has
    · exact .inr (.inl ⟨rfl, tight⟩)
    · rcases statementsBegin p' (Array.mem_toList_iff.mpr has.isProduction) statement with rfl | ⟨silent, _⟩
      · exact .inl ⟨rfl, rfl⟩
      · exact .inr (.inr fun s is => silent s is)

theorem reducesOnly {r r' : Rule} (leads : next? productions 0 (.rule r') = some j)
    (awaits : Awaits productions 0 (only r r') 0 k)
    (alone : ∀ p ∈ productions.toList, p.symbols[0]? = some (Symbol.rule r') → p = only r r') :
    Reduces productions j (only r r') k := by
  refine reducesBehind someProductions leads awaits rfl rfl fun p' m' has at_ => ?_
  obtain ⟨rfl, _⟩ := startHas has
  exact .inl ⟨alone p' (Array.mem_toList_iff.mpr has.isProduction) at_, rfl⟩

/-- What is only before the first statement. -/
def outermost : List Symbol := [.token .finish, .rule .sourceFile, .rule .root]

set_option maxRecDepth 2048 in
theorem innerBegin : ∀ p ∈ productions.toList, .rule p.rule ∉ outermost → ∃ s ∈ p.symbols[0]?, s ∉ outermost := by
  decide

-- More statements may begin behind a list of them, and none of them begins with the end of the input.
theorem reducesListed (leads : next? productions 0 (.rule .statementList) = some j) :
    Reduces productions j listed .finish := by
  let C (p : Production) (m : Nat) : Prop := p = listed ∧ m = 1 ∨ ∃ s ∈ p.symbols[m]?, s ∉ outermost
  have behind {p : Production} {m : Nat} (has : Has productions j p m) : C p m := by
    refine hasInduction someProductions leads (fun p m has at_ => ?_) (fun p m p' holds is at_ => ?_) has
    · obtain ⟨rfl, _⟩ := startHas has
      obtain ⟨_, _, lists⟩ := statementAlone p (Array.mem_toList_iff.mpr has.isProduction)
      rcases lists at_ with rfl | more
      · exact .inl ⟨rfl, rfl⟩
      · exact .inr ⟨_, more, by decide⟩
    · rcases holds with ⟨rfl, rfl⟩ | ⟨s, is', inner⟩
      · cases at_
      · cases is'.symm.trans at_
        exact .inr (innerBegin p' (Array.mem_toList_iff.mpr is) inner)
  have awaits : Awaits productions j listed 1 .finish := listedAwaits.moves someProductions rfl leads
  refine awaits.reduces someProductions (nextNone fun p m has at_ => ?_) fun p m awaits ended => ?_
  · rcases behind has with ⟨rfl, rfl⟩ | ⟨s, is, inner⟩
    · cases at_
    · cases is.symm.trans at_
      exact inner (by decide)
  · rcases behind awaits.has with ⟨rfl, rfl⟩ | ⟨s, is, inner⟩
    · rfl
    · cases is.symm.trans ended

theorem passReaches {r r' : Rule} {t : Token} {trees : List Tree} {below : List StackEntry} (rest : List Token)
    (reduces : Reduces productions j (only r r') t.kind) {j' : Nat}
    (leads : next? productions (top below) (.rule r) = some j') :
    fragment.Reaches 1 (⟨j, trees⟩ :: below) (t :: rest) (⟨j', trees⟩ :: below) (t :: rest) := by
  have reduced := reduceReaches [⟨j, trees⟩] below rest rfl reduces leads
  simpa [fragment, only, Make.apply] using reduced

-- What happens at the end of the input, once the statement is complete.
theorem statementReaches (tree : Tree) {t : Token} (ends : t.kind = .finish)
    (leads : next? productions 0 (.rule .exprStmt) = some j) : ∃ extent j',
    next? productions 0 (.rule .sourceFile) = some j' ∧
      fragment.Reaches 3 [⟨j, [tree]⟩, ⟨0, []⟩] [t] [⟨j', [.node .sourceFile extent [tree]]⟩, ⟨0, []⟩] [t] := by
  obtain ⟨j₁, leads₁⟩ := listAwaits.has.leads (s := .rule .statement) rfl
  obtain ⟨j₂, leads₂⟩ := listedAwaits.has.leads (s := .rule .statementList) rfl
  obtain ⟨j₃, leads₃⟩ := wholeStarts.leads (s := .rule .sourceFile) rfl
  have first : Reduces productions j (only .statement .exprStmt) t.kind :=
    ends ▸ reducesOnly leads statementAwaits fun p is => (statementAlone p is).1
  have second : Reduces productions j₁ (only .statementList .statement) t.kind :=
    ends ▸ reducesOnly leads₁ listAwaits fun p is => (statementAlone p is).2.1
  have up : fragment.Reaches 1 [⟨j, [tree]⟩, ⟨0, []⟩] [t] [⟨j₁, [tree]⟩, ⟨0, []⟩] [t] := passReaches [] first leads₁
  have up' : fragment.Reaches 1 [⟨j₁, [tree]⟩, ⟨0, []⟩] [t] [⟨j₂, [tree]⟩, ⟨0, []⟩] [t] := passReaches [] second leads₂
  obtain ⟨extent, reduce⟩ := nodeReaches .sourceFile [⟨j₂, [tree]⟩] [⟨0, []⟩] rfl rfl
    (ends ▸ reducesListed leads₂ : Reduces productions j₂ listed t.kind) leads₃ []
  exact ⟨extent, j₃, leads₃, (up.trans up').trans reduce⟩

theorem wholeRecognized {t : Token} (ends : t.kind = .finish) (leads : next? productions 0 (.rule .sourceFile) = some j)
    (trees : List Tree) (below : List StackEntry) (fuel : Nat) :
    fragment.recognize (fuel + 1) (⟨j, trees⟩ :: below) [t] = .ok trees := by
  obtain ⟨j', leads'⟩ := (wholeStarts.moves someProductions rfl leads).leads (s := .token .finish) rfl
  exact finishRecognized (ends ▸ leads') ends fuel

/-- The tree of a statement that is an expression, once the expression has been read. -/
theorem treeOfRead {ts : List Token} {t : Token} (ends : t.kind = .terminator) {tree : Tree} {cost : Nat}
    (leads : next? productions 0 (.rule (level 0)) = some j) (few : cost ≤ 32 * ts.length)
    (reaches : fragment.Reaches cost [⟨0, []⟩] (ts ++ t :: [endToken (ts ++ [t])]) [⟨j, [tree]⟩, ⟨0, []⟩]
      (t :: [endToken (ts ++ [t])])) : ∃ extent extent',
    treeOf (ts ++ [t]) = .ok [.node .sourceFile extent [.node .exprStmt extent' [tree, .leaf t]]] := by
  let last := endToken (ts ++ [t])
  have finish : last.kind = .finish := by simp [last, endToken, Token.become]
  obtain ⟨j₁, shifts⟩ := (startSeat.has.moves someProductions rfl leads).leads (s := .token .terminator) rfl
  have shift : fragment.Reaches 1 [⟨j, [tree]⟩, ⟨0, []⟩] (t :: [last]) [⟨j₁, [.leaf t]⟩, ⟨j, [tree]⟩, ⟨0, []⟩] [last] :=
    shiftReaches (ends ▸ shifts) (by simp [ends])
  have reduces : Reduces productions j₁ said last.kind := finish ▸ startSeat.reducesClosed rfl rfl saidAwaits leads shifts
  obtain ⟨j₂, leads₂⟩ := statementAwaits.has.leads (s := .rule .exprStmt) rfl
  obtain ⟨extent', reduce⟩ := nodeReaches .exprStmt [⟨j₁, [.leaf t]⟩, ⟨j, [tree]⟩] [⟨0, []⟩] rfl rfl reduces leads₂ []
  obtain ⟨extent, j₃, leads₃, up⟩ := statementReaches (.node .exprStmt extent' [tree, .leaf t]) finish leads₂
  have run := ((reaches.trans shift).trans reduce).trans up
  refine ⟨extent, extent', ?_⟩
  rw [treeOf, List.append_assoc]
  refine run.result (wholeRecognized finish leads₃ _ _) ?_
  simp only [List.length_append, List.length_singleton]
  omega

theorem treeOfFormula {e : Expr} (formula : Formula e) {ts : List Token} (words : ts.map Token.word = e.words 0) {t : Token}
    (ends : t.kind = .terminator) : ∃ tree extent extent', Shows ts.length tree e ∧
      treeOf (ts ++ [t]) = .ok [.node .sourceFile extent [.node .exprStmt extent' [tree, .leaf t]]] := by
  obtain ⟨tree, j, cost, shows, leads, few, reaches⟩ := formulaReads formula 0 (by decide) [⟨0, []⟩] (t := t) startSeat
    le_rfl (ends ▸ openedBefore startSeat.has rfl) (ends ▸ closerStops (by decide)) words [endToken (ts ++ [t])]
  obtain ⟨extent, extent', recognized⟩ := treeOfRead ends leads (by omega) reaches
  exact ⟨tree, extent, extent', shows, recognized⟩

end Fragment.Source.Grammar

namespace Fragment.Source

/-- The same formula but for places and the spelling of numbers. -/
inductive Alike : Expr → Expr → Prop
  | name (mark mark' : Mark) (name : String) : Alike (.ident mark name) (.ident mark' name)
  | number (mark mark' : Mark) (value : Number) (text text' : String) :
      Alike (.number mark value text) (.number mark' value text')
  | boolean (mark mark' : Mark) (value : Bool) : Alike (.boolean mark value) (.boolean mark' value)
  | unary (mark mark' : Mark) (op : UnaryOp) {e e' : Expr} (operand : Alike e e') :
      Alike (.unary mark op e) (.unary mark' op e')
  | binary (mark mark' : Mark) (op : BinaryOp) {l l' r r' : Expr} (left : Alike l l') (right : Alike r r') :
      Alike (.binary mark op l r) (.binary mark' op l' r')
  | conditional (mark mark' : Mark) {t t' y y' n n' : Expr} (test : Alike t t') (yes : Alike y y') (no : Alike n n') :
      Alike (.conditional mark t y n) (.conditional mark' t' y' n')

theorem unaryOpKind (op : UnaryOp) : unaryOp op.kind = op := by cases op <;> rfl

theorem binaryOpKind (op : BinaryOp) : binaryOp op.kind = op := by cases op <;> rfl

/-- Building succeeds with an expression like a given one. -/
def Builds (m : Builder Expr) (e : Expr) : Prop := ∀ s, ∃ e' s', m.run s = .ok (e', s') ∧ Alike e' e

theorem Builds.bind {m : Builder Expr} {e d : Expr} {f : Expr → Builder Expr} (builds : Builds m e)
    (next : ∀ e', Alike e' e → Builds (f e') d) : Builds (m >>= f) d := by
  intro s
  obtain ⟨e', s', built, alike⟩ := builds s
  obtain ⟨d', s'', built', alike'⟩ := next e' alike s'
  refine ⟨d', s'', ?_, alike'⟩
  rw [StateT.run_bind, built]
  exact built'

theorem Builds.marked {extent : Extent} {e : Expr} {f : Mark → Expr} (alike : ∀ mark, Alike (f mark) e) :
    Builds (Builder.mark extent >>= fun mark => pure (f mark)) e :=
  fun s => ⟨f ⟨s, extent⟩, s + 1, rfl, alike _⟩

theorem Shows.isNode {n : Nat} {tree : Tree} {e : Expr} (shows : Shows n tree e) :
    ∃ label extent children, tree = .node label extent children := by
  cases shows <;> exact ⟨_, _, _, rfl⟩

theorem buildsShown {n : Nat} {tree : Tree} {e : Expr} (shows : Shows n tree e) :
    ∀ fuel, n ≤ fuel → Builds (buildExpr fuel tree) e := by
  induction shows with
  | name extent t mark =>
    intro fuel enough
    obtain ⟨fuel, rfl⟩ := Nat.exists_eq_add_of_le' (by omega : 1 ≤ fuel)
    unfold buildExpr
    dsimp only
    exact .marked fun _ => .name _ _ _
  | number extent t mark denotes =>
    intro fuel enough
    obtain ⟨fuel, rfl⟩ := Nat.exists_eq_add_of_le' (by omega : 1 ≤ fuel)
    unfold buildExpr
    simp only [denotes, Builder.literal, pure_bind]
    exact .marked fun _ => .number _ _ _ _ _
  | boolean extent t mark value =>
    intro fuel enough
    obtain ⟨fuel, rfl⟩ := Nat.exists_eq_add_of_le' (by omega : 1 ≤ fuel)
    cases value
    · unfold buildExpr
      simp only [Bool.false_eq_true, if_false]
      exact .marked fun _ => .boolean _ _ _
    · unfold buildExpr
      simp only [if_true]
      exact .marked fun _ => .boolean _ _ _
  | paren extent t t' inner ih =>
    intro fuel enough
    obtain ⟨fuel, rfl⟩ := Nat.exists_eq_add_of_le' (by omega : 1 ≤ fuel)
    obtain ⟨label, extent', children, rfl⟩ := inner.isNode
    unfold buildExpr
    simp only [Tree.nodes, Tree.children, List.filter, List.head?, Builder.part, pure_bind]
    exact ih fuel (by omega)
  | unary extent mark is inner ih =>
    intro fuel enough
    obtain ⟨fuel, rfl⟩ := Nat.exists_eq_add_of_le' (by omega : 1 ≤ fuel)
    unfold buildExpr
    simp only [is, unaryOpKind]
    exact (ih fuel (by omega)).bind fun _ alike => .marked fun _ => .unary _ _ _ alike
  | binary extent mark is first second ih ih' =>
    intro fuel enough
    obtain ⟨fuel, rfl⟩ := Nat.exists_eq_add_of_le' (by omega : 1 ≤ fuel)
    unfold buildExpr
    simp only [is, binaryOpKind]
    exact (ih fuel (by omega)).bind fun _ alike => (ih' fuel (by omega)).bind fun _ alike' =>
      .marked fun _ => .binary _ _ _ alike alike'
  | conditional extent t t' mark decides first second ih ih' ih'' =>
    intro fuel enough
    obtain ⟨fuel, rfl⟩ := Nat.exists_eq_add_of_le' (by omega : 1 ≤ fuel)
    unfold buildExpr
    dsimp only
    exact (ih fuel (by omega)).bind fun _ alike => (ih' fuel (by omega)).bind fun _ alike' =>
      (ih'' fuel (by omega)).bind fun _ alike'' => .marked fun _ => .conditional _ _ alike alike' alike''

theorem buildsStatement {n : Nat} {tree : Tree} {e : Expr} (shows : Shows n tree e) {fuel : Nat} (enough : n < fuel)
    (extent : Extent) (t : Token) (s : Nat) : ∃ mark e' s',
    (buildStmt fuel (.node .exprStmt extent [tree, .leaf t])).run s = .ok (.expr mark e', s') ∧ Alike e' e := by
  obtain ⟨fuel, rfl⟩ := Nat.exists_eq_add_of_le' (by omega : 1 ≤ fuel)
  obtain ⟨e', s', built, alike⟩ := buildsShown shows fuel (by omega) s
  obtain ⟨label, extent', children, rfl⟩ := shows.isNode
  refine ⟨⟨s', extent⟩, e', s' + 1, ?_, alike⟩
  unfold buildStmt
  simp only [Tree.nodes, Tree.children, List.filter]
  rw [StateT.run_bind, built]
  rfl

/-- A text is parsed once its one statement has been built. -/
theorem parsesStatement {text : String} {ts : List Token} {extent extent' : Extent} {label : Label} {children : List Tree}
    {st : Stmt} {s : Nat} (lexed : tokens text = .ok ts)
    (recognized : treeOf (layOut ts) = .ok [.node .sourceFile extent [.node label extent' children]])
    (built : (buildStmt (buildDepth (layOut ts)) (.node label extent' children)).run 0 = .ok (st, s)) (file : String) :
    parse text file = .ok ⟨file, [st], references text⟩ := by
  have statements : ([Tree.node label extent' children].mapM (buildStmt (buildDepth (layOut ts)))).run 0 = .ok ([st], s) := by
    rw [List.mapM_cons, StateT.run_bind, built]
    rfl
  have nodes : [Tree.node .sourceFile extent [.node label extent' children]].flatMap Tree.nodes =
      [.node label extent' children] := rfl
  simp only [parse, parseFrom, lexed, recognized, Except.mapError, bind, Except.bind, nodes, statements]
  rfl

theorem parsesPrinted {e : Expr} (formula : Formula e) (file : String) : ∃ mark e',
    parse e.print file = .ok ⟨file, [.expr mark e'], references e.print⟩ ∧ Alike e' e := by
  obtain ⟨ts, lexed, words⟩ := tokensOfWords fun w member => (formula.wordsPlain 0 w member).lexes
  have filled : ts ≠ [] := by
    rintro rfl
    exact formula.wordsFilled 0 words.symm
  have plain : ∀ t ∈ ts, t.kind ∈ plainKinds := fun t member =>
    (formula.wordsPlain 0 t.word (words ▸ List.mem_map_of_mem member)).kind
  obtain ⟨t, ends, laidOut⟩ := layOutPlain filled plain
  obtain ⟨tree, extent, extent', shows, recognized⟩ := Grammar.treeOfFormula formula words ends
  have enough : ts.length < buildDepth (layOut ts) := by
    rw [buildDepth, laidOut, List.length_append]
    omega
  obtain ⟨mark, e', s', built, alike⟩ := buildsStatement shows enough extent' t 0
  have lexed' : tokens e.print = .ok ts := lexed
  rw [← laidOut] at recognized
  exact ⟨mark, e', parsesStatement lexed' recognized built file, alike⟩

def nowhere : Mark := ⟨0, ⟨1, 1⟩, ⟨1, 1⟩⟩

def negatedPower : Expr :=
  .conditional nowhere (.binary nowhere .or (.ident nowhere "a") (.unary nowhere .not (.ident nowhere "b")))
    (.binary nowhere .pow (.unary nowhere .minus (.ident nowhere "a"))
      (.binary nowhere .sub (.number nowhere (.int 1) "1")
        (.binary nowhere .sub (.number nowhere (.int 16) "0x10") (.number nowhere (.int 3) "3"))))
    (.boolean nowhere true)

theorem negatedPowerFormula : Formula negatedPower := by
  have a : Formula (.ident nowhere "a") := .name _ ⟨by decide, by decide, by decide⟩
  have b : Formula (.ident nowhere "b") := .name _ ⟨by decide, by decide, by decide⟩
  have one : Formula (.number nowhere (.int 1) "1") := .number _ ⟨by decide, by rfl⟩ (by rfl)
  have sixteen : Formula (.number nowhere (.int 16) "0x10") := .number _ ⟨by decide, by rfl⟩ (by rfl)
  have three : Formula (.number nowhere (.int 3) "3") := .number _ ⟨by decide, by rfl⟩ (by rfl)
  exact .conditional _ (.binary _ _ a (.unary _ _ b))
    (.binary _ _ (.unary _ _ a) (.binary _ _ one (.binary _ _ sixteen three))) (.boolean _ _)

theorem negatedPowerParses : negatedPower.print = "a || ! b ? ( - a ) ** ( 1 - ( 0x10 - 3 ) ) : true" ∧
    ∃ mark e', parse negatedPower.print "f.ts" = .ok ⟨"f.ts", [.expr mark e'], references negatedPower.print⟩ ∧
      Alike e' negatedPower :=
  ⟨by decide, parsesPrinted negatedPowerFormula "f.ts"⟩

end Fragment.Source
