import Fragment.Proofs.ExprsKept

/-! What the checker knows only grows.
Diagnostics are added behind those of before, the types of symbols and nodes stay known, and signatures keep what they
are declared with. This holds for whatever is looked at, so nothing is asked of trees here. -/
namespace Fragment.Source

/-- Any number may be that of an access, and any node that of a name. -/
def Tags.any : Tags := ⟨fun _ => True, fun _ => True⟩

def anyName (_ : String) : Prop := True

/-- The node of an access or of a name is tagged as such. -/
def Tags.Fits (A : Tags) : Node → Prop
  | .expression (.ident m _) => A.name m
  | .expression (.member m _ _) | .expression (.element m _ _) => A.access m.id
  | _ => True

section Labelled

variable {A : Tags}

theorem fitsBelow {n c : Node} (fits : ∀ m, m.Within n → A.Fits m) (child : c ∈ n.children) : ∀ m, m.Within c → A.Fits m :=
  fun m within => fits m (.part child within)

mutual

/-- A tree is labelled if all nodes in it are tagged as what they are. -/
theorem Expr.labelled : (e : Expr) → (∀ n, n.Within (.expression e) → A.Fits n) → e.Labelled anyName A
  | .number .., _ | .string .., _ | .boolean .., _ => trivial
  | .ident .., fits => fits _ (.self _)
  | .object _ properties, fits => labelledProperties properties fun p member => fitsBelow fits (List.mem_map_of_mem member)
  | .array _ elements, fits => labelledExprs elements fun e member => fitsBelow fits (List.mem_map_of_mem member)
  | .member _ target _, fits => ⟨fits _ (.self _), target.labelled (fitsBelow fits (by simp [Node.children]))⟩
  | .element _ target index, fits => ⟨fits _ (.self _), target.labelled (fitsBelow fits (by simp [Node.children])),
      index.labelled (fitsBelow fits (by simp [Node.children]))⟩
  | .call _ callee args, fits => ⟨callee.labelled (fitsBelow fits (by simp [Node.children])),
      labelledExprs args fun e member => fitsBelow fits (by simp [Node.children, member])⟩
  | .unary _ _ operand, fits | .await _ operand, fits => operand.labelled (fitsBelow fits (by simp [Node.children]))
  | .binary _ _ left right, fits | .assign _ _ left right, fits => ⟨left.labelled (fitsBelow fits (by simp [Node.children])),
      right.labelled (fitsBelow fits (by simp [Node.children]))⟩
  | .conditional _ test yes no, fits => ⟨test.labelled (fitsBelow fits (by simp [Node.children])),
      yes.labelled (fitsBelow fits (by simp [Node.children])), no.labelled (fitsBelow fits (by simp [Node.children]))⟩
  | .cast _ e _, fits => e.labelled (fitsBelow fits (by simp [Node.children]))
  | .arrow _ _ body _ _, fits => ⟨fun _ _ => trivial, body.labelled (fitsBelow fits (by simp [Node.children]))⟩

theorem labelledExprs : (es : List Expr) → (∀ e ∈ es, ∀ n, n.Within (.expression e) → A.Fits n) → LabelledExprs anyName A es
  | [], _ => trivial
  | e :: es, fits => ⟨e.labelled (fits e List.mem_cons_self), labelledExprs es fun d member => fits d (.tail e member)⟩

theorem labelledProperties : (ps : List Property) → (∀ p ∈ ps, ∀ n, n.Within (.property p) → A.Fits n) →
    LabelledProperties anyName A ps
  | [], _ => trivial
  | .mk _ _ value _ :: ps, fits => ⟨value.labelled (fitsBelow (fits _ List.mem_cons_self) (by simp [Node.children])),
      labelledProperties ps fun q member => fits q (.tail _ member)⟩

theorem Body.labelled : (b : Body) → (∀ n, n.Within (Node.ofBody b) → A.Fits n) → b.Labelled anyName A
  | .block b, fits => b.labelled fits
  | .expr e, fits => e.labelled fits

theorem Block.labelled : (b : Block) → (∀ n, n.Within (.statement (.block b)) → A.Fits n) → b.Labelled anyName A
  | .mk _ ss, fits => labelledStmts ss fun s member => fitsBelow fits (by simp [Node.children, member])

theorem Stmt.labelled : (s : Stmt) → (∀ n, n.Within (.statement s) → A.Fits n) → s.Labelled anyName A
  | .expr _ e, fits | .ret _ (some e), fits => e.labelled (fitsBelow fits (by simp [Node.children]))
  | .var _ _ declarations _, fits => labelledDeclarators declarations fun d member =>
      fitsBelow fits (by simp [Node.children, member])
  | .block b, fits => b.labelled fits
  | .cond _ test yes (some no), fits => ⟨test.labelled (fitsBelow fits (by simp [Node.children])),
      yes.labelled (fitsBelow fits (by simp [Node.children])), no.labelled (fitsBelow fits (by simp [Node.children]))⟩
  | .cond _ test yes none, fits => ⟨test.labelled (fitsBelow fits (by simp [Node.children])),
      yes.labelled (fitsBelow fits (by simp [Node.children])), trivial⟩
  | .loop _ test body, fits => ⟨test.labelled (fitsBelow fits (by simp [Node.children])),
      body.labelled (fitsBelow fits (by simp [Node.children]))⟩
  | .function _ _ _ _ (some b) _ _, fits => ⟨trivial, fun _ _ => trivial, b.labelled (fitsBelow fits (by simp [Node.children]))⟩
  | .function _ _ _ _ none _ _, _ => ⟨trivial, fun _ _ => trivial, trivial⟩
  | .enum _ _ members _ _, fits => ⟨trivial, labelledMembers members fun m member => fitsBelow fits (List.mem_map_of_mem member)⟩
  | .ret _ none, _ | .typeAlias .., _ | .interface .., _ | .brk _, _ | .cont _, _ | .empty _, _ | .classDecl .., _
  | .importDecl .., _ => trivial

theorem labelledStmts : (ss : List Stmt) → (∀ s ∈ ss, ∀ n, n.Within (.statement s) → A.Fits n) → LabelledStmts anyName A ss
  | [], _ => trivial
  | s :: ss, fits => ⟨s.labelled (fits s List.mem_cons_self), labelledStmts ss fun t member => fits t (.tail s member)⟩

theorem labelledDeclarators : (ds : List VarDeclarator) → (∀ d ∈ ds, ∀ n, n.Within (.declarator d) → A.Fits n) →
    LabelledDeclarators anyName A ds
  | [], _ => trivial
  | .mk _ _ _ (some e) :: ds, fits => ⟨trivial, e.labelled (fitsBelow (fits _ List.mem_cons_self) (by simp [Node.children])),
      labelledDeclarators ds fun d member => fits d (.tail _ member)⟩
  | .mk _ _ _ none :: ds, fits => ⟨trivial, trivial, labelledDeclarators ds fun d member => fits d (.tail _ member)⟩

theorem labelledMembers : (ms : List EnumMember) → (∀ m ∈ ms, ∀ n, n.Within (.enumMember m) → A.Fits n) →
    LabelledMembers anyName A ms
  | [], _ => trivial
  | .mk _ _ (some e) :: ms, fits => ⟨e.labelled (fitsBelow (fits _ List.mem_cons_self) (by simp [Node.children])),
      labelledMembers ms fun m member => fits m (.tail _ member)⟩
  | .mk _ _ none :: ms, fits => ⟨trivial, labelledMembers ms fun m member => fits m (.tail _ member)⟩

end

theorem fitsAny (n : Node) : Tags.any.Fits n := by
  unfold Tags.Fits
  split <;> trivial

theorem Expr.labelledAny (e : Expr) : e.Labelled anyName Tags.any := e.labelled fun n _ => fitsAny n

theorem Block.labelledAny (b : Block) : b.Labelled anyName Tags.any := b.labelled fun n _ => fitsAny n

theorem labelledAnyStmts (ss : List Stmt) : LabelledStmts anyName Tags.any ss := labelledStmts ss fun _ _ n _ => fitsAny n

end Labelled

end Fragment.Source

namespace Fragment.Typing

open Source (Tags anyName)
open Check

theorem FunctionNode.labelledAny (f : FunctionNode) : f.Labelled anyName Tags.any := by
  unfold FunctionNode.Labelled
  split
  · trivial
  · exact Source.Block.labelledAny _
  · exact Source.Expr.labelledAny _

theorem Declaration.labelledAny (d : Declaration) : d.Labelled anyName Tags.any := by
  unfold Declaration.Labelled
  split
  · exact fun e _ => e.labelledAny
  · exact FunctionNode.labelledAny _
  · exact FunctionNode.labelledAny _
  · trivial

theorem Symbol.labelledAny (x : Symbol) : x.Labelled anyName Tags.any :=
  ⟨fun d _ => d.labelledAny, fun d _ => d.labelledAny⟩

namespace State

/-- The diagnostics of a file. -/
def reported (s : State) (file : String) : List Diagnostic := s.diagnostics.getD file []

/-- What is known in `s` is still known in `s'`. -/
structure Continues (s s' : State) : Prop where
  reported : ∀ file, s.reported file <+: s'.reported file
  typed : ∀ x, (s.symbol x).type.isSome = true → (s'.symbol x).type.isSome = true
  signed : ∀ g sig, s.signature? g = some sig → ∃ result, s'.signature? g = some { sig with result }
  noted : ∀ (id : NodeId) (t : TypeId), s.nodeTypes[id]? = some t → s'.nodeTypes[id]? = some t

/-- Some file has more diagnostics than before. -/
def Tells (s s' : State) : Prop := ∃ file, (s.reported file).length < (s'.reported file).length

variable {s t u : State}

theorem Continues.refl (s : State) : s.Continues s :=
  ⟨fun _ => List.prefix_refl _, fun _ => id, fun _ sig found => ⟨sig.result, found⟩, fun _ _ => id⟩

theorem Continues.trans (first : s.Continues t) (rest : t.Continues u) : s.Continues u where
  reported file := (first.reported file).trans (rest.reported file)
  typed x known := rest.typed x (first.typed x known)
  signed g sig found := by
    obtain ⟨result, found⟩ := first.signed g sig found
    exact rest.signed g { sig with result } found
  noted id t found := rest.noted id t (first.noted id t found)

theorem Continues.thenTells (first : s.Continues t) (rest : t.Tells u) : s.Tells u :=
  rest.imp fun file more => Nat.lt_of_le_of_lt (first.reported file).length_le more

theorem Tells.thenContinues (first : s.Tells t) (rest : t.Continues u) : s.Tells u :=
  first.imp fun file more => Nat.lt_of_lt_of_le more (rest.reported file).length_le

/-- The same symbols, signatures, notes and diagnostics. -/
theorem Continues.same (before : s.Continues t) (symbols : u.symbols = t.symbols)
    (signatures : u.signatures = t.signatures) (nodeTypes : u.nodeTypes = t.nodeTypes) (diagnostics : u.diagnostics = t.diagnostics) : s.Continues u where
  reported file := by
    rw [State.reported, State.reported, diagnostics]
    exact before.reported file
  typed x known := by
    rw [symbol, symbols]
    exact before.typed x known
  signed g sig found := by
    rw [signature?, signatures]
    exact before.signed g sig found
  noted id t found := by
    rw [nodeTypes]
    exact before.noted id t found

/-- Other symbols, of which those that were there have types as before. -/
theorem Continues.symbols (before : s.Continues t) {symbols : Array Symbol}
    (typed : ∀ x, (t.symbol x).type.isSome = true → (({ t with symbols } : State).symbol x).type.isSome = true) :
    s.Continues { t with symbols } :=
  ⟨before.reported, fun x known => typed x (before.typed x known), before.signed, before.noted⟩

end State

theorem symbolModify (s : State) (x y : SymbolId) (f : Symbol → Symbol) :
    ({ s with symbols := s.symbols.modify x f } : State).symbol y = if x = y ∧ y < s.symbols.size then f (s.symbol y)
      else s.symbol y := by
  simp only [State.symbol, Array.getD_eq_getD_getElem?, Array.getElem?_modify]
  by_cases same : x = y
  · subst same
    by_cases inside : x < s.symbols.size
    · simp [inside]
    · simp [inside]
  · simp [same]

theorem modifyTyped {s : State} {x : SymbolId} {f : Symbol → Symbol}
    (typed : ∀ y, y.type.isSome = true → (f y).type.isSome = true) (y : SymbolId)
    (known : (s.symbol y).type.isSome = true) :
    (({ s with symbols := s.symbols.modify x f } : State).symbol y).type.isSome = true := by
  rw [symbolModify]
  split
  · exact typed _ known
  · exact known

theorem continuesReports {s : State} (mark : Source.Mark) (m : Message) (notes : List String) :
    Keeps s.Continues (report mark m notes) := .modified fun t before => by
  refine ⟨fun file => (before.reported file).trans ?_, before.typed, before.signed, before.noted⟩
  simp only [State.reported, Std.HashMap.getD_insert]
  split
  next same =>
    rw [← beq_iff_eq.mp same]
    exact List.prefix_append ..
  next => exact List.prefix_refl _

instance continuesLasting (s : State) : Lasting anyName Tags.any s.Continues where
  symbols _ _ x _ := x.labelledAny
  signatures _ _ g _ := g.node.labelledAny
  deferred _ _ f _ := f.labelledAny
  same t u before same := by
    simp only [State.record, Prod.mk.injEq] at same
    obtain ⟨-, -, -, symbols, signatures, -, -, -, -, nodeTypes, diagnostics, -⟩ := same
    exact before.same symbols signatures nodeTypes diagnostics
  report := continuesReports
  note t mark type before unknown := .modified fun u after => by
    refine ⟨after.reported, after.typed, after.signed, fun id found known => ?_⟩
    have other : mark.id ≠ id := by
      rintro rfl
      rw [before.noted _ _ known] at unknown
      cases unknown
    rw [Std.HashMap.getElem?_insert, if_neg (by simpa using other)]
    exact after.noted id found known
  newSymbol x _ := .modifiedGet fun t before => before.symbols fun y known => by
    rw [State.symbol, Array.getD_eq_getD_getElem?] at known ⊢
    rcases Nat.lt_or_ge y t.symbols.size with inside | outside
    · rw [Array.getElem?_push, if_neg (Nat.ne_of_lt inside)]
      exact known
    · rw [Array.getElem?_eq_none outside] at known
      cases known
  refine x f refines := .modified fun t before => before.symbols (modifyTyped refines.typed)
  redeclare t _ f redeclares := .modified fun u before =>
    before.symbols (modifyTyped fun y known => (redeclares.type y).symm ▸ known)
  newSignature g _ := .modifiedGet fun t before => by
    refine ⟨before.reported, before.typed, fun h sig found => ?_, before.noted⟩
    obtain ⟨result, found⟩ := before.signed h sig found
    refine ⟨result, ?_⟩
    rw [State.signature?, Array.getElem?_push, if_neg (Nat.ne_of_lt (Array.getElem?_eq_some_iff.mp found).1)]
    exact found
  result g result := .modified fun t before => by
    refine ⟨before.reported, before.typed, fun h sig found => ?_, before.noted⟩
    obtain ⟨known, found⟩ := before.signed h sig found
    rw [State.signature?] at found
    rw [State.signature?, Array.getElem?_modify, found]
    split
    · exact ⟨_, rfl⟩
    · exact ⟨known, rfl⟩
  access t id x before _ := before.same rfl rfl rfl rfl
  use t t' mark name accessed x scope fuel before _ _ _ run :=
    useKeeps (fun mark m => continuesReports mark m []) (before.same rfl rfl rfl rfl) run
  checkedBody _ _ before := before.same rfl rfl rfl rfl
  checkedFile _ _ before := before.same rfl rfl rfl rfl
  defer t f before _ := before.same rfl rfl rfl rfl
  next t f rest before _ := before.same rfl rfl rfl rfl

/-! What is declared -/

/-- Between the two states nothing has been declared. Symbols of properties may have been made. -/
structure State.Bound (t s : State) : Prop where
  declared : s.symbolOf = t.symbolOf
  files : s.fileOf = t.fileOf
  placed : s.scopeOf = t.scopeOf
  contained : s.containerOf = t.containerOf
  scopes : s.scopes = t.scopes
  symbols : ∀ x < t.symbols.size, (s.symbol x).declared = (t.symbol x).declared
  more : t.symbols.size ≤ s.symbols.size

theorem State.Bound.refl (t : State) : t.Bound t := ⟨rfl, rfl, rfl, rfl, rfl, fun _ _ => rfl, Nat.le_refl _⟩

/-- A condition on what names stand for and on what has been reported, which accesses, reports and the names that are looked
up keep. -/
structure Watches (A : Tags) (t : State) (N : State → Prop) : Prop where
  same : ∀ s s', N s → s'.resolvedSymbols = s.resolvedSymbols → s'.diagnostics = s.diagnostics → N s'
  report : ∀ mark m notes, Keeps N (report mark m notes)
  access : ∀ s id x, N s → A.access id → N { s with resolvedSymbols := s.resolvedSymbols.insert id x }
  use : ∀ s s' mark name accessed x fuel, t.Bound s → N s → A.name mark →
    s.resolve name SymbolFlags.value fuel (t.scopeOf.getD mark.id globalScope) = some x →
    (useName mark name accessed x).run s = .ok ((), s') → N s'

section Bound

variable {t s : State} {A : Tags} {N : State → Prop}

theorem State.Bound.same (b : t.Bound s) {s' : State} (declared : s'.symbolOf = s.symbolOf) (files : s'.fileOf = s.fileOf)
    (placed : s'.scopeOf = s.scopeOf) (contained : s'.containerOf = s.containerOf) (scopes : s'.scopes = s.scopes)
    (symbols : s'.symbols = s.symbols) : t.Bound s' := by
  refine ⟨declared.trans b.declared, files.trans b.files, placed.trans b.placed, contained.trans b.contained,
    scopes.trans b.scopes, fun x old => ?_, symbols ▸ b.more⟩
  rw [State.symbol, symbols]
  exact b.symbols x old

theorem State.Bound.pushed (b : t.Bound s) (y : Symbol) : t.Bound { s with symbols := s.symbols.push y } := by
  refine ⟨b.declared, b.files, b.placed, b.contained, b.scopes, fun x old => ?_, Nat.le_trans b.more (Array.size_push _ ▸ Nat.le_succ _)⟩
  rw [State.symbol, Array.getD_eq_getD_getElem?, Array.getElem?_push, if_neg (Nat.ne_of_lt (Nat.lt_of_lt_of_le old b.more)),
    ← Array.getD_eq_getD_getElem?]
  exact b.symbols x old

theorem State.Bound.modified (b : t.Bound s) (x : SymbolId) {f : Symbol → Symbol}
    (fits : t.symbols.size ≤ x ∨ ∀ y, (f y).declared = y.declared) : t.Bound { s with symbols := s.symbols.modify x f } := by
  refine ⟨b.declared, b.files, b.placed, b.contained, b.scopes, fun y old => ?_, Nat.le_trans b.more (Array.size_modify ▸ Nat.le_refl _)⟩
  rw [symbolModify]
  split
  next own =>
    obtain ⟨rfl, -⟩ := own
    exact (fits.resolve_left (Nat.not_le.mpr old) _).trans (b.symbols _ old)
  next => exact b.symbols y old

theorem boundReports (mark : Source.Mark) (m : Message) (notes : List String) : Keeps t.Bound (report mark m notes) :=
  .modified fun _ b => b.same rfl rfl rfl rfl rfl rfl

theorem Keeps.both {I J : State → Prop} {α : Type} {m : Check α} (first : Keeps I m) (rest : Keeps J m) :
    Keeps (fun s => I s ∧ J s) m where
  keeps s a s' holds run := ⟨first.keeps s a s' holds.1 run, rest.keeps s a s' holds.2 run⟩

/-- The checker declares nothing, so it keeps whatever is watched. -/
theorem Watches.lasting (w : Watches A t N) (Q : String → Prop) :
    Lasting Q A fun s => s.Labelled Q A (fun _ => False) ∧ t.Bound s ∧ N s := by
  have l : Lasting Q A (State.Labelled Q A fun _ => False) := inferInstance
  have modified (x : SymbolId) (f : Symbol → Symbol) (fits : t.symbols.size ≤ x ∨ ∀ y, (f y).declared = y.declared) :
      Keeps (fun s => t.Bound s ∧ N s) (modifySymbol x f) :=
    .modified fun s h => ⟨h.1.modified x fits, w.same s _ h.2 rfl rfl⟩
  exact {
    symbols := fun s h => l.symbols s h.1
    signatures := fun s h => l.signatures s h.1
    deferred := fun s h => l.deferred s h.1
    same := fun s s' h record => ⟨l.same s s' h.1 record, by
      simp only [State.record, Prod.mk.injEq] at record
      obtain ⟨resolved, declared, scopes, symbols, -, -, files, placed, contained, -, diagnostics, -⟩ := record
      exact ⟨h.2.1.same declared files placed contained scopes symbols, w.same s s' h.2.2 resolved diagnostics⟩⟩
    report := fun mark m notes => .both (l.report mark m notes) (.both (boundReports mark m notes) (w.report mark m notes))
    note := fun s mark type h unknown => .both (l.note s mark type h.1 unknown)
      (.modified fun s h => ⟨h.1.same rfl rfl rfl rfl rfl rfl, w.same s _ h.2 rfl rfl⟩)
    newSymbol := fun x fits => .both (l.newSymbol x fits)
      (.modifiedGet fun s h => ⟨h.1.pushed x, w.same s _ h.2 rfl rfl⟩)
    refine := fun x f refines => .both (l.refine x f refines) (modified x f (.inr refines.declared))
    redeclare := fun s h f redeclares => .both (l.redeclare s h.1 f redeclares) (modified _ f (.inl h.2.1.more))
    newSignature := fun g fits => .both (l.newSignature g fits)
      (.modifiedGet fun s h => ⟨h.1.same rfl rfl rfl rfl rfl rfl, w.same s _ h.2 rfl rfl⟩)
    result := fun g result => .both (l.result g result)
      (.modified fun s h => ⟨h.1.same rfl rfl rfl rfl rfl rfl, w.same s _ h.2 rfl rfl⟩)
    access := fun s id x h is => ⟨l.access s id x h.1 is, h.2.1.same rfl rfl rfl rfl rfl rfl, w.access s id x h.2.2 is⟩
    use := fun s s' mark name accessed x scope fuel h named own found run => by
      refine ⟨l.use s s' mark name accessed x scope fuel h.1 named own found run, ?_, ?_⟩
      · exact useKeeps (fun mark m => boundReports mark m []) (h.2.1.same rfl rfl rfl rfl rfl rfl) run
      · exact w.use s s' mark name accessed x fuel h.2.1 h.2.2 named (by rwa [own, h.2.1.placed] at found) run
    checkedBody := fun s id h => ⟨l.checkedBody s id h.1, h.2.1.same rfl rfl rfl rfl rfl rfl, w.same s _ h.2.2 rfl rfl⟩
    checkedFile := fun s name h => ⟨l.checkedFile s name h.1, h.2.1.same rfl rfl rfl rfl rfl rfl, w.same s _ h.2.2 rfl rfl⟩
    defer := fun s f h fits => ⟨l.defer s f h.1 fits, h.2.1.same rfl rfl rfl rfl rfl rfl, w.same s _ h.2.2 rfl rfl⟩
    next := fun s f rest h waiting =>
      ⟨l.next s f rest h.1 waiting, h.2.1.same rfl rfl rfl rfl rfl rfl, w.same s _ h.2.2 rfl rfl⟩ }

end Bound

/-! Steps that report something -/

/-- After the step some file has more diagnostics than before. -/
def Telling {α : Type} (m : Check α) : Prop := ∀ s a s', m.run s = .ok (a, s') → s.Tells s'

section Telling

variable {α β : Type} {m : Check α} {f : α → Check β}

theorem Telling.report (mark : Source.Mark) (m : Message) (notes : List String) : Telling (report mark m notes) := by
  intro s a s' run
  cases run
  refine ⟨(s.fileOf[mark.id]?).getD "", ?_⟩
  simp [State.reported]

theorem Telling.first (tells : Telling m) [rest : ∀ (s : State) a, Keeps s.Continues (f a)] : Telling (m >>= f) := by
  intro s b s' run
  obtain ⟨a, t, step, run⟩ := runBind run
  exact (tells s a t step).thenContinues ((rest t a).keeps t b s' (.refl t) run)

theorem Telling.last [first : ∀ s : State, Keeps s.Continues m] (tells : ∀ a, Telling (f a)) : Telling (m >>= f) := by
  intro s b s' run
  obtain ⟨a, t, step, run⟩ := runBind run
  exact ((first s).keeps s a t (.refl s) step).thenTells (tells a t b s' run)

end Telling

end Fragment.Typing
