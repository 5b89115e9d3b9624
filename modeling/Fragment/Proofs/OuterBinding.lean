import Fragment.Proofs.BindingKept
import Fragment.Proofs.FileNumbers

/-! Binding libraries and a fragment of one expression.
Such a fragment declares nothing but in its functions. So the outermost scope knows what libraries declare and
`undefined`, and what the binder notes about functions of the fragment is apart from what it notes outside of them. -/
namespace Fragment.Source

namespace Node

/-- A node of an expression. -/
def isFormula : Node → Bool
  | expression _ | property _ => true
  | _ => false

theorem formulaPlain {n : Node} (formula : n.isFormula = true) : n.isTyping = false := by
  cases n <;> first | rfl | cases formula

theorem outerPart {n c : Node} (formula : n.isFormula = true) (part : c ∈ n.outerParts) :
    c ∈ n.children ∧ c.isFormula = true := by
  cases n with
  | expression e =>
    cases e <;> simp only [outerParts, children, List.mem_cons, List.mem_map, List.not_mem_nil, or_false] at part ⊢
    all_goals grind [isFormula]
  | property p =>
    cases p
    simp only [outerParts, children, List.mem_singleton] at part ⊢
    exact ⟨part, part ▸ rfl⟩
  | _ => cases formula

/-- What goes down with the nodes of expressions holds of the outer ones. -/
theorem Outer.keeps {P : Node → Prop} (below : ∀ n c : Node, P n → c ∈ n.children → c.isFormula = true → P c) {n m : Node}
    (outer : n.Outer m) (formula : m.isFormula = true) (holds : P m) : P n := by
  induction outer with
  | self => exact holds
  | part child _ ih =>
    obtain ⟨child, inner⟩ := outerPart formula child
    exact ih inner (below _ _ holds child inner)

/-- An expression of the fragment: its nodes have numbers from `limit` on, and those of `A` stand in functions. -/
structure Outside (limit : Nat) (A : Nat → Prop) (n : Node) : Prop where
  numbers : n.All (limit ≤ ·)
  splits : n.Splits A

theorem Outside.part {limit : Nat} {A : Nat → Prop} {n c : Node} (outside : n.Outside limit A)
    (formula : n.isFormula = true) (part : c ∈ n.outerParts) : c.Outside limit A :=
  ⟨outside.numbers.child (outerPart formula part).1, (splitsIff.mp outside.splits).2 c part⟩

end Node

end Fragment.Source

namespace Fragment.Typing

open Source (Mark Expr Node Property SourceFile isDeclarationName)
open Check

/-! Libraries -/

/-- The outermost scope stands in no other one, and the symbols that it knows exist. -/
def State.HasOutermost (s : State) : Prop :=
  ∃ c, s.scopes[globalScope]? = some c ∧ c.parent = none ∧ ∀ (name : String) x, c.names[name]? = some x → x < s.symbols.size

/-- Libraries have been bound, whose nodes have numbers below `limit`. -/
structure State.Bundled (limit : Nat) (s : State) : Prop where
  files : ∀ (id : NodeId) file, s.fileOf[id]? = some file → id < limit ∧ isDeclarationName file = true
  placed : ∀ (id : NodeId) scope, s.scopeOf[id]? = some scope → id < limit
  declared : ∀ (id : NodeId) x, s.symbolOf[id]? = some x → id < limit
  outermost : s.HasOutermost
  known : ∀ (x : SymbolId) symbol, x ≠ undefinedSymbol → s.symbols[x]? = some symbol →
    symbol.declarations ≠ [] ∧ ∀ d ∈ symbol.declarations, d.mark.id ∈ s.fileOf

section Libraries

variable {limit : Nat} {s : State}

theorem State.Bundled.noted (b : s.Bundled limit) {id : NodeId} (below : id < limit) {file : String}
    (declares : isDeclarationName file = true) : ({ s with fileOf := s.fileOf.insert id file } : State).Bundled limit := by
  refine ⟨fun other name found => ?_, b.placed, b.declared, b.outermost, fun x symbol old there => ?_⟩
  · rw [Std.HashMap.getElem?_insert] at found
    split at found
    next same =>
      cases found
      exact ⟨beq_iff_eq.mp same ▸ below, declares⟩
    next => exact b.files other name found
  · obtain ⟨some, filed⟩ := b.known x symbol old there
    exact ⟨some, fun d member => by simp [filed d member]⟩

theorem State.Bundled.symbols (b : s.Bundled limit) (symbols : Array Symbol) (more : s.symbols.size ≤ symbols.size)
    (known : ∀ (x : SymbolId) symbol, x ≠ undefinedSymbol → symbols[x]? = some symbol →
      symbol.declarations ≠ [] ∧ ∀ d ∈ symbol.declarations, d.mark.id ∈ s.fileOf) :
    ({ s with symbols } : State).Bundled limit := by
  obtain ⟨c, here, alone, inside⟩ := b.outermost
  exact ⟨b.files, b.placed, b.declared, ⟨c, here, alone, fun name x named => (inside name x named).trans_le more⟩, known⟩

theorem State.Bundled.declaredAt (b : s.Bundled limit) {id : NodeId} (below : id < limit) (x : SymbolId)
    (diagnostics : Std.HashMap String (List Diagnostic)) :
    ({ s with diagnostics, symbolOf := s.symbolOf.insert id x } : State).Bundled limit := by
  refine ⟨b.files, b.placed, fun other y found => ?_, b.outermost, b.known⟩
  rw [Std.HashMap.getElem?_insert] at found
  split at found
  next same => exact beq_iff_eq.mp same ▸ below
  next => exact b.declared other y found

theorem State.Bundled.bound (b : s.Bundled limit) (scope : ScopeId) (name : String) {x : SymbolId} (there : x < s.symbols.size) :
    ({ s with scopes := s.scopes.modify scope fun c => { c with names := c.names.insert name x } } : State).Bundled limit := by
  refine ⟨b.files, b.placed, b.declared, ?_, b.known⟩
  obtain ⟨c, here, alone, inside⟩ := b.outermost
  unfold State.HasOutermost
  rw [Array.getElem?_modify, here]
  split
  · refine ⟨_, rfl, alone, fun key y named => ?_⟩
    rw [Std.HashMap.getElem?_insert] at named
    split at named
    · cases named
      exact there
    · exact inside key y named
  · exact ⟨c, rfl, alone, inside⟩

theorem State.Bundled.declareStep (b : s.Bundled limit) {d : Declaration} (below : d.mark.id < limit)
    (filed : d.mark.id ∈ s.fileOf) {scope : ScopeId} {name : String} {flags excludes : SymbolFlags} {s' : State}
    (step : DeclareStep scope name flags excludes d s s') : s'.Bundled limit := by
  have pushed (x : SymbolId) (symbol : Symbol) (old : x ≠ undefinedSymbol)
      (there : (s.symbols.push (declaredOnce name d flags))[x]? = some symbol) :
      symbol.declarations ≠ [] ∧ ∀ d ∈ symbol.declarations, d.mark.id ∈ s.fileOf := by
    rw [Array.getElem?_push] at there
    split at there
    · cases there
      simp [declaredOnce, Symbol.addDeclaration, filed]
    · exact b.known x symbol old there
  have more := b.symbols (s.symbols.push (declaredOnce name d flags)) (by simp) pushed
  cases step with
  | orphan diagnostics => exact more.declaredAt below _ diagnostics
  | first => exact (more.bound scope name (by simp)).declaredAt below s.symbols.size _
  | @merged diagnostics _ x here known =>
    refine (b.symbols (s.symbols.modify x (·.addDeclaration d flags)) (by simp) fun y symbol old there => ?_).declaredAt
      below x diagnostics
    rw [Array.getElem?_modify] at there
    split at there
    · obtain ⟨before, was, rfl⟩ := Option.map_eq_some_iff.mp there
      obtain ⟨-, known⟩ := b.known y before old was
      refine ⟨by simp [Symbol.addDeclaration], fun e member => ?_⟩
      rcases List.mem_append.mp member with earlier | new
      · exact known e earlier
      · exact List.mem_singleton.mp new ▸ filed
    · exact b.known y symbol old there

/-- Other symbols with the same declarations. -/
theorem State.Bundled.detailed (b : s.Bundled limit) (x : SymbolId) {f : Symbol → Symbol}
    (same : ∀ y, (f y).declarations = y.declarations) :
    ({ s with symbols := s.symbols.modify x f } : State).Bundled limit := by
  refine b.symbols _ (by simp) fun y symbol old there => ?_
  rw [Array.getElem?_modify] at there
  split at there
  · obtain ⟨before, was, rfl⟩ := Option.map_eq_some_iff.mp there
    rw [same]
    exact b.known y before old was
  · exact b.known y symbol old there

theorem bundledBinding (limit : Nat) {file : String} (declares : isDeclarationName file = true) (tops : List Source.Stmt) :
    Binding (fun _ => State.Bundled limit) file tops (fun _ => (·.All (· < limit))) (·.All (· < limit)) where
  fewer _ := id
  below all child := by
    split
    · exact all.child child
    · exact all.child child
  typed all child := all.child child
  noteFile own all := .modified fun _ b => b.noted (Source.Node.allIff.mp (or_self_iff.mp all)).1 (own ▸ declares)
  noteScope all _ := .modified fun s b => by
    refine ⟨b.files, fun other name found => ?_, b.declared, b.outermost, b.known⟩
    rw [Std.HashMap.getElem?_insert] at found
    split at found
    next same => exact beq_iff_eq.mp same ▸ (Source.Node.allIff.mp all).1
    next => exact b.placed other name found
  noteContainer _ _ := .modified fun _ b => ⟨b.files, b.placed, b.declared, b.outermost, b.known⟩
  newScope _ _ b run := by
    cases run
    refine ⟨b.files, b.placed, b.declared, ?_, b.known⟩
    obtain ⟨c, here, outermost⟩ := b.outermost
    refine ⟨c, ?_, outermost⟩
    rw [Array.getElem?_push, if_neg (Nat.ne_of_lt (Array.getElem?_eq_some_iff.mp here).1)]
    exact here
  error _ _ := .modified fun _ b => ⟨b.files, b.placed, b.declared, b.outermost, b.known⟩
  declare {_ p _ _ _ _ _ _ _} own all _ declared _ := by
    have below := (Source.Node.allIff.mp all).1
    refine ⟨fun s x s' b run => ?_⟩
    obtain ⟨⟨⟩, t, noted, run⟩ := runBind run
    cases noted
    have filed := b.noted below (own ▸ declares : isDeclarationName p.file = true)
    exact filed.declareStep (declared.mark ▸ below) (by simp [declared.mark]) (Typing.declareStep run)
  detail x _ _ := .modified fun _ b => b.detailed x fun _ => rfl

theorem initialBundled (limit : Nat) : State.initial.Bundled limit := by
  refine ⟨fun id file found => ?_, fun id scope found => ?_, fun id x found => ?_, ⟨_, rfl, rfl, fun name x named => ?_⟩,
    fun x symbol old there => ?_⟩
  · simp [State.initial] at found
  · simp [State.initial] at found
  · simp [State.initial] at found
  · change (({} : Std.HashMap String SymbolId).insert "undefined" undefinedSymbol)[name]? = some x at named
    rw [Std.HashMap.getElem?_insert] at named
    split at named
    · cases named
      decide
    · simp at named
  · obtain ⟨inside, -⟩ := Array.getElem?_eq_some_iff.mp there
    exact absurd (Nat.lt_one_iff.mp inside) old

/-- Binding the libraries of a compilation. -/
theorem bindBundled {libraries : List SourceFile} (declares : ∀ f ∈ libraries, isDeclarationName f.name = true)
    (below : ∀ f ∈ libraries, ∀ st ∈ f.statements, (Node.statement st).All (· < limit)) :
    Keeps (State.Bundled limit) (libraries.forM bindFile) :=
  .forM fun f member => (bundledBinding limit (declares f member) f.statements).bindFile (below f member)

end Libraries

/-! The fragment -/

/-- What is declared of a symbol and matters to names outside of functions. -/
def Symbol.kinds (x : Symbol) : SymbolFlags × List Declaration := (x.flags, x.declarations)

theorem State.kindsOf (s : State) (x : SymbolId) : (s.symbol x).kinds = ((s.symbols[x]?).map Symbol.kinds).getD (0, []) := by
  rw [State.symbol, Array.getD_eq_getD_getElem?]
  cases s.symbols[x]? <;> rfl

/-- After `t` the fragment has been bound, whose nodes have numbers from `limit` on. Its functions have scopes, symbols and
nodes of their own; a node outside of them stands in the outermost scope and declares nothing. -/
structure State.Beside (t : State) (limit : Nat) (A : Nat → Prop) (s : State) : Prop where
  scopes : ∀ i < t.scopes.size, s.scopes[i]? = t.scopes[i]?
  symbols : ∀ x < t.symbols.size, (s.symbols[x]?).map Symbol.kinds = (t.symbols[x]?).map Symbol.kinds
  files : ∀ id < limit, s.fileOf[id]? = t.fileOf[id]?
  moreScopes : t.scopes.size ≤ s.scopes.size
  moreSymbols : t.symbols.size ≤ s.symbols.size
  inner : ∀ (i : ScopeId) c, t.scopes.size ≤ i → s.scopes[i]? = some c → ∀ (key : String) x, c.names[key]? = some x →
    t.symbols.size ≤ x
  outside : ∀ id : NodeId, limit ≤ id → ¬A id → s.scopeOf.getD id globalScope = globalScope ∧ s.symbolOf[id]? = none

section Beside

variable {t s : State} {limit : Nat} {A : Nat → Prop}

/-- A state in which only other things are known. -/
theorem State.Beside.same (b : t.Beside limit A s) {s' : State} (scopes : s'.scopes = s.scopes)
    (symbols : s'.symbols = s.symbols) (files : s'.fileOf = s.fileOf) (scopeOf : s'.scopeOf = s.scopeOf)
    (symbolOf : s'.symbolOf = s.symbolOf) : t.Beside limit A s' := by
  refine ⟨?_, ?_, ?_, ?_, ?_, ?_, ?_⟩
  · exact scopes ▸ b.scopes
  · exact symbols ▸ b.symbols
  · exact files ▸ b.files
  · exact scopes ▸ b.moreScopes
  · exact symbols ▸ b.moreSymbols
  · exact scopes ▸ b.inner
  · rw [scopeOf, symbolOf]
    exact b.outside

theorem State.Beside.noted (b : t.Beside limit A s) {id : NodeId} (above : limit ≤ id) (file : String) :
    t.Beside limit A { s with fileOf := s.fileOf.insert id file } := by
  refine ⟨b.scopes, b.symbols, fun other low => ?_, b.moreScopes, b.moreSymbols, b.inner, b.outside⟩
  rw [Std.HashMap.getElem?_insert, if_neg (by simpa using (Nat.ne_of_lt (Nat.lt_of_lt_of_le low above)).symm)]
  exact b.files other low

theorem State.Beside.placed (b : t.Beside limit A s) {id : NodeId} {scope : ScopeId} (fits : A id ∨ scope = globalScope) :
    t.Beside limit A { s with scopeOf := s.scopeOf.insert id scope } := by
  refine ⟨b.scopes, b.symbols, b.files, b.moreScopes, b.moreSymbols, b.inner, fun other above apart => ⟨?_, ?_⟩⟩
  · rw [Std.HashMap.getD_insert]
    split
    next same => exact fits.resolve_left (beq_iff_eq.mp same ▸ apart)
    next => exact (b.outside other above apart).1
  · exact (b.outside other above apart).2

/-- Other symbols, of which those that were there before the fragment are declared as they were. -/
theorem State.Beside.changed (b : t.Beside limit A s) {symbols : Array Symbol}
    (old : ∀ x < t.symbols.size, (symbols[x]?).map Symbol.kinds = (s.symbols[x]?).map Symbol.kinds) (more : s.symbols.size ≤ symbols.size) :
    t.Beside limit A { s with symbols } :=
  ⟨b.scopes, fun x low => (old x low).trans (b.symbols x low), b.files, b.moreScopes, b.moreSymbols.trans more, b.inner,
    b.outside⟩

theorem State.Beside.pushed (b : t.Beside limit A s) (x : Symbol) :
    t.Beside limit A { s with symbols := s.symbols.push x } := by
  refine b.changed (fun y low => ?_) (by simp)
  rw [Array.getElem?_push, if_neg (Nat.ne_of_lt (Nat.lt_of_lt_of_le low b.moreSymbols))]

theorem State.Beside.modified (b : t.Beside limit A s) {x : SymbolId} (fresh : t.symbols.size ≤ x) (f : Symbol → Symbol) :
    t.Beside limit A { s with symbols := s.symbols.modify x f } := by
  refine b.changed (fun y low => ?_) (by simp)
  rw [Array.getElem?_modify, if_neg (Nat.ne_of_lt (Nat.lt_of_lt_of_le low fresh)).symm]

theorem State.Beside.detailed (b : t.Beside limit A s) (x : SymbolId) {f : Symbol → Symbol}
    (same : ∀ y, (f y).kinds = y.kinds) : t.Beside limit A { s with symbols := s.symbols.modify x f } := by
  refine b.changed (fun y low => ?_) (by simp)
  rw [Array.getElem?_modify]
  split
  · simp [Function.comp_def, same]
  · rfl

theorem State.Beside.declaredAt (b : t.Beside limit A s) {id : NodeId} (inside : A id) (x : SymbolId) :
    t.Beside limit A { s with symbolOf := s.symbolOf.insert id x } := by
  refine ⟨b.scopes, b.symbols, b.files, b.moreScopes, b.moreSymbols, b.inner, fun other above apart => ⟨?_, ?_⟩⟩
  · exact (b.outside other above apart).1
  · rw [Std.HashMap.getElem?_insert, if_neg (by rw [beq_iff_eq]; rintro rfl; exact apart inside)]
    exact (b.outside other above apart).2

theorem State.Beside.bound (b : t.Beside limit A s) {scope : ScopeId} (opened : t.scopes.size ≤ scope) (name : String)
    {x : SymbolId} (fresh : t.symbols.size ≤ x) :
    t.Beside limit A { s with scopes := s.scopes.modify scope fun c => { c with names := c.names.insert name x } } := by
  refine ⟨fun i low => ?_, b.symbols, b.files, ?_, b.moreSymbols, fun i c above here key y found => ?_, b.outside⟩
  · rw [Array.getElem?_modify, if_neg (Nat.ne_of_lt (Nat.lt_of_lt_of_le low opened)).symm]
    exact b.scopes i low
  · rw [Array.size_modify]
    exact b.moreScopes
  · rw [Array.getElem?_modify] at here
    split at here
    · obtain ⟨before, was, rfl⟩ := Option.map_eq_some_iff.mp here
      rw [Std.HashMap.getElem?_insert] at found
      split at found
      · cases found
        exact fresh
      · exact b.inner i before above was key y found
    · exact b.inner i c above here key y found

/-- A declaration in the scope of a function of the fragment. -/
theorem State.Beside.declareStep (b : t.Beside limit A s) {d : Declaration} (inside : A d.mark.id) {scope : ScopeId}
    (opened : t.scopes.size ≤ scope) {name : String} {flags excludes : SymbolFlags} {s' : State}
    (step : DeclareStep scope name flags excludes d s s') : t.Beside limit A s' := by
  have pushed := (b.pushed (declaredOnce name d flags)).declaredAt inside s.symbols.size
  cases step with
  | orphan => exact pushed.same rfl rfl rfl rfl rfl
  | first => exact (pushed.bound opened name b.moreSymbols).same rfl rfl rfl rfl rfl
  | merged _ here known =>
    have fresh := b.inner scope _ opened here name _ known
    exact ((b.modified fresh (·.addDeclaration d flags)).declaredAt inside _).same rfl rfl rfl rfl rfl

/-- The scopes that are opened for nodes are new ones. -/
theorem besideBinding (t : State) (limit : Nat) (A : Nat → Prop) (file : String) :
    Binding (fun C s => t.Beside limit A s ∧ ∀ scope n, C scope (.node n) → t.scopes.size ≤ scope) file []
      (fun _ => (·.All fun i => limit ≤ i ∧ A i)) (·.All (limit ≤ ·)) where
  fewer less b := ⟨b.1, fun scope n opened => b.2 scope n (less _ _ opened)⟩
  below all child := by
    split
    · exact (all.child child).imp fun _ => And.left
    · exact all.child child
  typed all child := all.child child
  noteFile _ all := .modified fun _ b =>
    ⟨b.1.noted (all.elim (fun all => (Source.Node.allIff.mp all).1.1) fun all => (Source.Node.allIff.mp all).1) _, b.2⟩
  noteScope all _ := .modified fun _ b => ⟨b.1.placed (.inl (Source.Node.allIff.mp all).1.2), b.2⟩
  noteContainer _ _ := .modified fun _ b => ⟨b.1.same rfl rfl rfl rfl rfl, b.2⟩
  newScope _ _ b run := by
    obtain ⟨b, opened⟩ := b
    cases run
    refine ⟨⟨fun i low => ?_, b.symbols, b.files, ?_, b.moreSymbols, fun i c above here key y found => ?_, b.outside⟩,
      fun scope n => Or.rec (opened scope n) fun new => new.1 ▸ b.moreScopes⟩
    · rw [Array.getElem?_push, if_neg (Nat.ne_of_lt (Nat.lt_of_lt_of_le low b.moreScopes))]
      exact b.scopes i low
    · rw [Array.size_push]
      exact b.moreScopes.trans (Nat.le_succ _)
    · rw [Array.getElem?_push] at here
      split at here
      · cases here
        simp at found
      · exact b.inner i c above here key y found
  error _ _ := .modified fun _ b => ⟨b.1.same rfl rfl rfl rfl rfl, b.2⟩
  declare {_ _ _ _ r _ _ _ _} _ all opened declared stands := by
    obtain ⟨above, inside⟩ := (Source.Node.allIff.mp all).1
    -- No statement of the file is bound here, so the scope is not the outermost one.
    obtain ⟨n, rfl⟩ : ∃ n, r = .node n := by
      cases r with
      | files => cases stands with
        | top stands => exact absurd stands List.not_mem_nil
        | hoisted _ some => exact absurd rfl (some rfl)
      | node n => exact ⟨n, rfl⟩
    refine ⟨fun s x s' b run => ?_⟩
    obtain ⟨⟨⟩, u, noted, run⟩ := runBind run
    cases noted
    exact ⟨(b.1.noted above _).declareStep (declared.mark ▸ inside) (b.2 _ _ opened) (Typing.declareStep run), b.2⟩
  detail x _ _ := .modified fun _ b => ⟨b.1.detailed x fun _ => rfl, b.2⟩

/-- While only the outermost scope is open, no scope has been opened for a node. -/
theorem besideKeeps {α : Type} {m : Check α} (keeps : Keeps (fun s => t.Beside limit A s ∧
    ∀ scope n, Scopes.outermost scope (.node n) → t.scopes.size ≤ scope) m) : Keeps (t.Beside limit A) m where
  keeps s a s' b run := (keeps.keeps s a s' ⟨b, nofun⟩ run).1

/-! What is outside of its functions -/

section Outer

variable {p : Place}

/-- An outer node is noted with its file before anything else about it. -/
theorem outerNoted {n : Node} (outside : n.Outside limit A) {f : Unit → Check Unit} (rest : Keeps (t.Beside limit A) (f ())) :
    Keeps (t.Beside limit A) (noteFile p n.mark >>= f) :=
  (besideKeeps ((besideBinding t limit A p.file).noteFile rfl (.inr outside.numbers))).bind fun _ => rest

mutual

theorem bindOuter : (e : Expr) → (Node.expression e).Outside limit A → Keeps (t.Beside limit A) (bindExpr p globalScope e)
  | .number .., outside | .string .., outside | .boolean .., outside => by
    unfold bindExpr
    exact besideKeeps ((besideBinding t limit A p.file).noteFile rfl (.inr outside.numbers))
  | .ident m _, outside => by
    unfold bindExpr
    refine outerNoted outside (.bind (.modified fun s b => b.placed (.inr rfl)) fun _ => .modified fun _ b => ?_)
    exact b.same rfl rfl rfl rfl rfl
  | .object _ properties, outside => by
    unfold bindExpr
    refine outerNoted outside (bindOuterProperties properties fun q member => outside.part rfl ?_)
    exact List.mem_map_of_mem member
  | .array _ elements, outside => by
    unfold bindExpr
    refine outerNoted outside (bindOuters elements fun q member => outside.part rfl ?_)
    exact List.mem_map_of_mem member
  | .member _ target _, outside | .unary _ _ target, outside => by
    unfold bindExpr
    exact outerNoted outside (bindOuter target (outside.part rfl (by simp [Node.outerParts, Node.children])))
  | .await _ operand, outside => by
    unfold bindExpr
    refine outerNoted outside (.bind (.modified fun _ b => b.same rfl rfl rfl rfl rfl) fun _ => ?_)
    exact bindOuter operand (outside.part rfl (by simp [Node.outerParts, Node.children]))
  | .element _ left right, outside | .binary _ _ left right, outside | .assign _ _ left right, outside => by
    unfold bindExpr
    refine outerNoted outside (.bind (bindOuter left (outside.part rfl ?_)) fun _ => bindOuter right (outside.part rfl ?_))
    · unfold Node.outerParts
      simp [Node.children]
    · unfold Node.outerParts
      simp [Node.children]
  | .call _ callee args, outside => by
    unfold bindExpr
    refine outerNoted outside (.bind (bindOuter callee (outside.part rfl ?_)) fun _ =>
      bindOuters args fun q member => outside.part rfl ?_)
    · unfold Node.outerParts
      simp [Node.children]
    · simp [Node.outerParts, Node.children, member]
  | .conditional _ test yes no, outside => by
    unfold bindExpr
    refine outerNoted outside (.bind (bindOuter test (outside.part rfl ?_)) fun _ =>
      .bind (bindOuter yes (outside.part rfl ?_)) fun _ => bindOuter no (outside.part rfl ?_))
    · simp [Node.outerParts, Node.children]
    · simp [Node.outerParts, Node.children]
    · simp [Node.outerParts, Node.children]
  | .cast _ e type, outside => by
    unfold bindExpr
    refine outerNoted outside (.bind (bindOuter e (outside.part rfl ?_)) fun _ => ?_)
    · simp [Node.outerParts]
    · refine besideKeeps ((besideBinding t limit A p.file).bindType rfl type ?_)
      exact outside.numbers.child (by simp [Node.children])
  | .arrow m params body result isAsync, outside => by
    have inside : (Node.expression (.arrow m params body result isAsync)).All A := (Source.Node.splitsIff.mp outside.splits).1
    refine besideKeeps ((besideBinding t limit A p.file).bindExpr rfl (.arrow m params body result isAsync)
      (fun n within => ⟨outside.numbers n within, inside n within⟩) ⟨.files, ⟨rfl, rfl⟩, trivial⟩)

theorem bindOuters : (es : List Expr) → (∀ e ∈ es, (Node.expression e).Outside limit A) →
    Keeps (t.Beside limit A) (bindExprs p globalScope es)
  | [], _ => by
    unfold bindExprs
    infer_instance
  | e :: es, outside => by
    unfold bindExprs
    exact .bind (bindOuter e (outside e List.mem_cons_self)) fun _ =>
      bindOuters es fun q member => outside q (List.mem_cons_of_mem e member)

theorem bindOuterProperties : (ps : List Property) → (∀ q ∈ ps, (Node.property q).Outside limit A) →
    Keeps (t.Beside limit A) (bindProperties p globalScope ps)
  | [], _ => by
    unfold bindProperties
    infer_instance
  | .mk m name value shorthand :: ps, outside => by
    have first := outside (.mk m name value shorthand) List.mem_cons_self
    unfold bindProperties
    refine outerNoted first (.bind (bindOuter value (first.part rfl ?_)) fun _ =>
      bindOuterProperties ps fun q member => outside q (List.mem_cons_of_mem _ member))
    simp [Node.outerParts, Node.children]

end

end Outer

theorem State.Bundled.besideSelf (b : t.Bundled limit) (A : Nat → Prop) : t.Beside limit A t := by
  refine ⟨fun _ _ => rfl, fun _ _ => rfl, fun _ _ => rfl, le_rfl, le_rfl, fun i c above here => ?_, fun id above _ => ⟨?_, ?_⟩⟩
  · exact absurd (Array.getElem?_eq_some_iff.mp here).1 (Nat.not_lt.mpr above)
  · rw [Std.HashMap.getD_eq_getD_getElem?]
    cases found : t.scopeOf[id]? with
    | none => rfl
    | some scope => exact absurd (b.placed id scope found) (Nat.not_lt.mpr above)
  · cases found : t.symbolOf[id]? with
    | none => rfl
    | some x => exact absurd (b.declared id x found) (Nat.not_lt.mpr above)

/-- Once libraries and a fragment of one expression have been bound, the fragment stands beside the libraries. -/
theorem startBeside {libraries : List SourceFile} {file : SourceFile} {m : Mark} {e : Expr}
    (declares : ∀ f ∈ libraries, isDeclarationName f.name = true)
    (below : ∀ f ∈ libraries, ∀ st ∈ f.statements, (Node.statement st).All (· < limit))
    (single : file.statements = [.expr m e]) (numbers : (Node.statement (.expr m e)).All (limit ≤ ·))
    (splits : (Node.expression e).Splits A) (started : start (libraries ++ [file]) = .ok s) :
    ∃ t : State, t.Bundled limit ∧ t.Beside limit A s := by
  unfold start at started
  obtain ⟨⟨⟨⟩, u⟩, bound, started⟩ := okBind started
  cases started
  have apart : (libraries ++ [file]).forM bindFile = (libraries.forM bindFile >>= fun _ => bindFile file) := by
    simp only [List.forM_eq_forM, List.forM_append, List.forM_cons, List.forM_nil, bind_pure_unit]
  rw [apart] at bound
  obtain ⟨⟨⟩, t, first, last⟩ := runBind bound
  have bundled := (bindBundled declares below).keeps _ _ _ (initialBundled limit) first
  have whole : bindFile file = (noteFile { file := file.name } m >>= fun _ => bindExpr { file := file.name } globalScope e) := by
    unfold bindFile
    simp [single, hoistVars, hoistVar, declareStatement, bindStmts, bindStmt]
  have keeps : Keeps (t.Beside limit A) (bindFile file) := by
    rw [whole]
    refine .bind (besideKeeps ((besideBinding t limit A file.name).noteFile (n := .statement (.expr m e)) rfl (.inr numbers)))
      fun _ => bindOuter e ⟨?_, splits⟩
    exact numbers.child (by simp [Node.children])
  exact ⟨t, bundled, keeps.keeps _ _ _ (bundled.besideSelf A) last⟩

end Beside

end Fragment.Typing
