import Fragment.Proofs.Keeping
import Fragment.Proofs.Nodes

/-! Conditions that binding keeps.
Binding a file notes its nodes, opens scopes and declares names in them. A condition that each of these steps keeps is
kept when a file is bound. Which nodes there are, and in which scopes names may be declared, is up to the condition. -/
namespace Fragment.Source

/-- A node of a type or of the members of one. -/
def Node.isTyping : Node → Bool
  | type _ | typeParam _ | typeMember _ => true
  | _ => false

end Fragment.Source

namespace Fragment.Typing

open Fragment.Source (Mark Expr Node TypeNode TypeMember Param TypeParam Block Body Property Stmt VarDeclarator EnumMember
  SourceFile)
open Check

/-- A node declares a name. -/
inductive NodeDeclares : Node → String → Declaration → Prop
  | declarator (d : VarDeclarator) : NodeDeclares (.declarator d) d.name (.variable d)
  | param (p : Param) : NodeDeclares (.param p) p.name (.param p)
  | function (mark : Mark) (name : String) (params : List Param) (result : Option TypeNode) (body : Option Block)
      (isAsync ambient : Bool) : NodeDeclares (.statement (.function mark name params result body isAsync ambient)) name
        (.function (.ofDeclaration mark params result body isAsync ambient))
  | interface (mark : Mark) (name : String) (typeParams : List TypeParam) (parents : List TypeNode)
      (members : List TypeMember) : NodeDeclares (.statement (.interface mark name typeParams parents members)) name
        (.interface mark typeParams parents members)
  | typeAlias (mark : Mark) (name : String) (typeParams : List TypeParam) (type : TypeNode) :
      NodeDeclares (.statement (.typeAlias mark name typeParams type)) name (.typeAlias mark typeParams type)
  | enum (mark : Mark) (name : String) (members : List EnumMember) (isConst ambient : Bool) :
      NodeDeclares (.statement (.enum mark name members isConst ambient)) name (.enum mark members)

theorem NodeDeclares.mark {n : Node} {name : String} {d : Declaration} (declares : NodeDeclares n name d) :
    d.mark = n.mark := by
  cases declares <;> rfl

/-- A symbol with its first declaration. -/
def declaredOnce (name : String) (d : Declaration) (flags : SymbolFlags) : Symbol :=
  Symbol.addDeclaration { flags := 0, name } d flags

/-- What a declaration of a name in a scope may change, errors apart. -/
inductive DeclareStep (scope : ScopeId) (name : String) (flags excludes : SymbolFlags) (d : Declaration) (s : State) :
    State → Prop
  /-- The declaration clashes with others and gets a symbol that the scope does not know. -/
  | orphan (diagnostics : Std.HashMap String (List Diagnostic)) : DeclareStep scope name flags excludes d s
      { s with diagnostics
               symbols := s.symbols.push (declaredOnce name d flags)
               symbolOf := s.symbolOf.insert d.mark.id s.symbols.size }
  /-- The scope does not have the name yet. -/
  | first : DeclareStep scope name flags excludes d s
      { s with symbols := s.symbols.push (declaredOnce name d flags)
               scopes := s.scopes.modify scope fun c => { c with names := c.names.insert name s.symbols.size }
               symbolOf := s.symbolOf.insert d.mark.id s.symbols.size }
  /-- The declaration joins others of the name, none of which it excludes. -/
  | merged (diagnostics : Std.HashMap String (List Diagnostic)) {c : Scope} {x : SymbolId} (here : s.scopes[scope]? = some c)
      (known : c.names[name]? = some x) (fits : (s.symbol x).flags.meets excludes = false) : DeclareStep scope name flags excludes d s
      { s with diagnostics
               symbols := s.symbols.modify x (·.addDeclaration d flags)
               symbolOf := s.symbolOf.insert d.mark.id x }

theorem declareStep {scope : ScopeId} {name : String} {flags excludes : SymbolFlags} {d : Declaration} {s s' : State}
    {x : SymbolId} (run : (declare scope name flags excludes d).run s = .ok (x, s')) :
    DeclareStep scope name flags excludes d s s' := by
  have looked : (lookupIn scope name).run s = .ok ((s.scopes[scope]?).bind (·.names[name]?), s) := rfl
  unfold declare at run
  rw [runThen looked] at run
  split at run
  · cases run
    exact .first
  next y found =>
    obtain ⟨c, here, known⟩ := Option.bind_eq_some_iff.mp found
    change (if (s.symbol y).flags.meets excludes then _ else _ : Check SymbolId).run s = .ok (x, s') at run
    split at run
    next =>
      dsimp only at run
      split at run <;> cases run <;> exact .orphan _
    next fits =>
      dsimp only at run
      split at run <;> cases run <;> exact .merged _ here known (Bool.not_eq_true _ ▸ fits)

/-- What a statement declares in its own scope, and as what. -/
def declaredNodes : Stmt → List (Node × SymbolFlags)
  | .var _ kind declarations _ =>
    if kind = .var then [] else declarations.map fun d => (.declarator d, SymbolFlags.blockVariable)
  | .function m name params result body isAsync ambient =>
    [(.statement (.function m name params result body isAsync ambient), SymbolFlags.function)]
  | .interface m name typeParams parents members =>
    [(.statement (.interface m name typeParams parents members), SymbolFlags.interface)]
  | .typeAlias m name typeParams type => [(.statement (.typeAlias m name typeParams type), SymbolFlags.typeAlias)]
  | .enum m name members isConst ambient =>
    [(.statement (.enum m name members isConst ambient),
      if isConst then SymbolFlags.constEnum else SymbolFlags.regularEnum)]
  | _ => []

/-- The function around the parts of a node. -/
def innerContainer (c : Option FunctionNode) : Node → Option FunctionNode
  | .statement (.function m _ params result body isAsync ambient) =>
    some (.ofDeclaration m params result body isAsync ambient)
  | .expression (.arrow m params body result isAsync) => some (.ofArrow m params body result isAsync)
  | _ => c

/-- A node that a scope with parameters is opened for. -/
def isFunction (n : Node) : Bool := (innerContainer none n).isSome

/-- What a scope is opened for: all files or a node. -/
inductive Region where
  | files
  | node (n : Node)

def Region.Has : Region → Node → Prop
  | .files, _ => True
  | .node m, n => n.Within m

theorem Region.Has.child {r : Region} {n c : Node} (has : r.Has n) (child : c ∈ n.children) : r.Has c := by
  cases r with
  | files => trivial
  | node m => exact (Node.Within.part child (.self c)).trans has

/-- The scopes that are open, with what they have been opened for. -/
abbrev Scopes := ScopeId → Region → Prop

/-- Only the outermost scope is open. -/
def Scopes.outermost : Scopes := fun scope r => scope = globalScope ∧ r = .files

def Scopes.add (C : Scopes) (scope : ScopeId) (n : Node) : Scopes := fun other r => C other r ∨ (other = scope ∧ r = .node n)

/-- A node stands in a scope. -/
def Stands (C : Scopes) (scope : ScopeId) (n : Node) : Prop := ∃ r, C scope r ∧ r.Has n

section Stands

variable {C : Scopes} {scope : ScopeId} {n c : Node}

theorem Stands.child (stands : Stands C scope n) (child : c ∈ n.children) : Stands C scope c :=
  stands.imp fun _ h => ⟨h.1, h.2.child child⟩

theorem Stands.add (stands : Stands C scope n) (other : ScopeId) (m : Node) : Stands (C.add other m) scope n :=
  stands.imp fun _ h => ⟨.inl h.1, h.2⟩

theorem Stands.opened (C : Scopes) (scope : ScopeId) (within : c.Within n) : Stands (C.add scope n) scope c :=
  ⟨_, .inr ⟨rfl, rfl⟩, within⟩

end Stands

/-- How a node comes to be declared in the scope that has been opened for something, as what, and without what other
declarations of its name. -/
inductive Introduces (Ok : Option FunctionNode → Node → Prop) (tops : List Stmt) :
    Region → Node → SymbolFlags → SymbolFlags → Prop
  | top {st : Stmt} {n : Node} {flags : SymbolFlags} (stands : st ∈ tops) (declared : (n, flags) ∈ declaredNodes st) :
    Introduces Ok tops .files n flags flags.excludes
  | block {c : Option FunctionNode} {m : Mark} {ss : List Stmt} {st : Stmt} {n : Node} {flags : SymbolFlags}
    (ok : Ok c (.statement (.block (.mk m ss)))) (stands : st ∈ ss) (declared : (n, flags) ∈ declaredNodes st) :
    Introduces Ok tops (.node (.statement (.block (.mk m ss)))) n flags flags.excludes
  | branch {c : Option FunctionNode} {st : Stmt} {n : Node} {flags : SymbolFlags} (ok : Ok c (.statement st))
    (declared : (n, flags) ∈ declaredNodes st) : Introduces Ok tops (.node (.statement st)) n flags flags.excludes
  | body {c : Option FunctionNode} {f : Node} {m : Mark} {ss : List Stmt} {st : Stmt} {n : Node} {flags : SymbolFlags}
    (ok : Ok c f) (function : isFunction f = true) (inside : .statement (.block (.mk m ss)) ∈ f.children) (stands : st ∈ ss)
    (declared : (n, flags) ∈ declaredNodes st) : Introduces Ok tops (.node f) n flags flags.excludes
  | hoisted {c : Option FunctionNode} (r : Region) {m : Mark} {declarations : List VarDeclarator} {ambient : Bool}
    {d : VarDeclarator} (some : r = .files → tops ≠ []) (ok : Ok c (.statement (.var m .var declarations ambient)))
    (member : d ∈ declarations) : Introduces Ok tops r (.declarator d) SymbolFlags.functionVariable SymbolFlags.functionVariable.excludes
  | param {c : Option FunctionNode} {f : Node} {q : Param} {flags : SymbolFlags} (value : flags.meets SymbolFlags.value = true)
    (ok : Ok c f) (inside : .param q ∈ f.children) : Introduces Ok tops (.node f) (.param q) flags SymbolFlags.value

/-- The steps of binding a file keep a condition, which may depend on the scopes that are open: `Ok` holds of the nodes of
the file and the functions around them, `Typed` of the nodes of types, and `tops` are the statements of the file. -/
structure Binding (I : Scopes → State → Prop) (file : String) (tops : List Stmt) (Ok : Option FunctionNode → Node → Prop)
    (Typed : Node → Prop) : Prop where
  fewer : ∀ {C C' : Scopes} {s : State}, (∀ scope r, C scope r → C' scope r) → I C' s → I C s
  below : ∀ {c : Option FunctionNode} {n d : Node}, Ok c n → d ∈ n.children →
    if d.isTyping then Typed d else Ok (innerContainer c n) d
  typed : ∀ {n c : Node}, Typed n → c ∈ n.children → Typed c
  noteFile : ∀ {C : Scopes} {p : Place} {n : Node}, p.file = file → Ok p.container n ∨ Typed n →
    Keeps (I C) (noteFile p n.mark)
  noteScope : ∀ {C : Scopes} {c : Option FunctionNode} {scope : ScopeId} {n : Node}, Ok c n → Stands C scope n →
    Keeps (I C) (noteScope n.mark scope)
  noteContainer : ∀ {C : Scopes} {p : Place} {n : Node}, Ok p.container n → (∀ q, n ≠ .param q) →
    Keeps (I C) (noteContainer p n.mark)
  newScope : ∀ {C : Scopes} {c : Option FunctionNode} {scope : ScopeId} {n : Node} {s s' : State} {x : ScopeId}, Ok c n →
    Stands C scope n → I C s → (newScope { parent := some scope }).run s = .ok (x, s') → I (C.add x n) s'
  error : ∀ {C : Scopes} (mark : Mark) (m : Message), Keeps (I C) (error mark m)
  declare : ∀ {C : Scopes} {p : Place} {n : Node} {scope : ScopeId} {r : Region} {name : String} {d : Declaration}
    {flags excludes : SymbolFlags}, p.file = file → Ok p.container n → C scope r → NodeDeclares n name d →
    Introduces Ok tops r n flags excludes → Keeps (I C) (do
      Check.noteFile p n.mark
      Check.declare scope name flags excludes d)
  detail : ∀ {C : Scopes} (x : SymbolId) (isConst isAmbient : Symbol → Bool),
    Keeps (I C) (modifySymbol x fun s => { s with isConst := isConst s, isAmbient := isAmbient s })

namespace Binding

variable {I : Scopes → State → Prop} {file : String} {tops : List Stmt} {Ok : Option FunctionNode → Node → Prop}
  {Typed : Node → Prop} {α : Type} {C : Scopes}

section Rules

variable (h : Binding I file tops Ok Typed)

include h

theorem inside {c : Option FunctionNode} {n d : Node} (ok : Ok c n) (child : d ∈ n.children) (other : d.isTyping = false) :
    Ok (innerContainer c n) d := by
  have := h.below ok child
  rwa [if_neg (by simp [other])] at this

theorem within {c : Option FunctionNode} {n d : Node} (ok : Ok c n) (child : d ∈ n.children) (typing : d.isTyping = true) :
    Typed d := by
  have := h.below ok child
  rwa [if_pos typing] at this

/-- A node is noted with its file before anything else about it. -/
theorem noted {p : Place} (own : p.file = file) {n : Node} (ok : Ok p.container n) {f : Unit → Check α}
    (rest : Keeps (I C) (f ())) : Keeps (I C) (Check.noteFile p n.mark >>= f) :=
  (h.noteFile own (.inl ok)).bind fun _ => rest

theorem notedType {p : Place} (own : p.file = file) {n : Node} (typed : Typed n) {f : Unit → Check α}
    (rest : Keeps (I C) (f ())) : Keeps (I C) (Check.noteFile p n.mark >>= f) :=
  (h.noteFile own (.inr typed)).bind fun _ => rest

/-- A declaration, and what is done with its symbol. -/
theorem declared {p : Place} (own : p.file = file) {n : Node} (ok : Ok p.container n) {scope : ScopeId} {r : Region}
    (opened : C scope r) {name : String} {d : Declaration} (declares : NodeDeclares n name d) {flags excludes : SymbolFlags}
    (stands : Introduces Ok tops r n flags excludes) {f : SymbolId → Check α} (rest : ∀ x, Keeps (I C) (f x)) : Keeps (I C) (do
      Check.noteFile p n.mark
      let x ← Check.declare scope name flags excludes d
      f x) := by
  have first := (h.declare own ok opened declares stands).bind rest
  rwa [bind_assoc] at first

/-- What follows may count on a new scope, which is left when it has been done. -/
theorem opening {c : Option FunctionNode} {scope : ScopeId} {n : Node} (ok : Ok c n) (stands : Stands C scope n)
    {f : ScopeId → Check α} (rest : ∀ inner, Keeps (I (C.add inner n)) (f inner)) :
    Keeps (I C) (Check.newScope { parent := some scope } >>= f) where
  keeps s a s' holds run := by
    obtain ⟨inner, t, made, run⟩ := runBind run
    exact h.fewer (fun _ _ => .inl) ((rest inner).keeps t a s' (h.newScope ok stands holds made) run)

end Rules

/-! Types -/

mutual

theorem bindType (h : Binding I file tops Ok Typed) {p : Place} (own : p.file = file) : (t : TypeNode) →
    Typed (.type t) → Keeps (I C) (bindType p t)
  | .ref m name nodes, typed => by
    unfold Typing.bindType
    exact h.notedType own typed (h.bindTypes own nodes fun u member => h.typed typed (List.mem_map_of_mem member))
  | .union m nodes, typed => by
    unfold Typing.bindType
    exact h.notedType own typed (h.bindTypes own nodes fun u member => h.typed typed (List.mem_map_of_mem member))
  | .intersection m nodes, typed => by
    unfold Typing.bindType
    exact h.notedType own typed (h.bindTypes own nodes fun u member => h.typed typed (List.mem_map_of_mem member))
  | .array _ element, typed => by
    unfold Typing.bindType
    exact h.notedType own typed (h.bindType own element (h.typed typed (by simp [Node.children])))
  | .literal .., typed => by
    unfold Typing.bindType
    exact h.noteFile own (.inr typed)
  | .function _ params result, typed => by
    unfold Typing.bindType
    refine h.notedType own typed (.bind (h.bindTypeParams own params fun q member => ?_) fun _ => ?_)
    · exact h.typed typed (by simp [Node.children, member])
    · exact h.bindType own result (h.typed typed (by simp [Node.children]))
  | .members _ members, typed => by
    unfold Typing.bindType
    exact h.notedType own typed (h.bindMembers own members fun m member => h.typed typed (List.mem_map_of_mem member))

theorem bindTypes (h : Binding I file tops Ok Typed) {p : Place} (own : p.file = file) : (ts : List TypeNode) →
    (∀ t ∈ ts, Typed (.type t)) → Keeps (I C) (bindTypes p ts)
  | [], _ => by
    unfold Typing.bindTypes
    infer_instance
  | t :: ts, typed => by
    unfold Typing.bindTypes
    exact .bind (h.bindType own t (typed t List.mem_cons_self)) fun _ =>
      h.bindTypes own ts fun u member => typed u (List.mem_cons_of_mem t member)

theorem bindTypeParams (h : Binding I file tops Ok Typed) {p : Place} (own : p.file = file) :
    (params : List Param) → (∀ q ∈ params, Typed (.param q)) → Keeps (I C) (bindTypeParams p params)
  | [], _ => by
    unfold Typing.bindTypeParams
    infer_instance
  | .mk m name (some t) optional rest :: ps, typed => by
    have first := typed (.mk m name (some t) optional rest) List.mem_cons_self
    unfold Typing.bindTypeParams
    refine h.notedType own first (.bind (h.bindType own t (h.typed first (by simp [Node.children]))) fun _ => ?_)
    exact h.bindTypeParams own ps fun q member => typed q (List.mem_cons_of_mem _ member)
  | .mk m name none optional rest :: ps, typed => by
    unfold Typing.bindTypeParams
    refine h.notedType own (typed _ List.mem_cons_self) ?_
    exact h.bindTypeParams own ps fun q member => typed q (List.mem_cons_of_mem _ member)

theorem bindMembers (h : Binding I file tops Ok Typed) {p : Place} (own : p.file = file) : (members : List TypeMember) →
    (∀ m ∈ members, Typed (.typeMember m)) → Keeps (I C) (bindMembers p members)
  | [], _ => by
    unfold Typing.bindMembers
    infer_instance
  | .property m name type optional :: ms, typed => by
    have first := typed (.property m name type optional) List.mem_cons_self
    unfold Typing.bindMembers
    refine h.notedType own first (.bind (h.bindType own type (h.typed first (by simp [Node.children]))) fun _ => ?_)
    exact h.bindMembers own ms fun n member => typed n (List.mem_cons_of_mem _ member)
  | .method m name params result optional :: ms, typed => by
    have first := typed (.method m name params result optional) List.mem_cons_self
    have rest := h.bindMembers own ms fun n member => typed n (List.mem_cons_of_mem _ member)
    unfold Typing.bindMembers
    refine h.notedType own first (.bind (h.bindTypeParams own params fun q member => ?_) fun _ => ?_)
    · exact h.typed first (by simp [Node.children, member])
    · cases result with
      | some t => exact .bind (h.bindType own t (h.typed first (by simp [Node.children]))) fun _ => rest
      | none => exact rest
  | .call m params result :: ms, typed => by
    have first := typed (.call m params result) List.mem_cons_self
    have rest := h.bindMembers own ms fun n member => typed n (List.mem_cons_of_mem _ member)
    unfold Typing.bindMembers
    refine h.notedType own first (.bind (h.bindTypeParams own params fun q member => ?_) fun _ => ?_)
    · exact h.typed first (by simp [Node.children, member])
    · cases result with
      | some t => exact .bind (h.bindType own t (h.typed first (by simp [Node.children]))) fun _ => rest
      | none => exact rest

end

theorem bindGenerics (h : Binding I file tops Ok Typed) {p : Place} (own : p.file = file)
    {params : List TypeParam} (typed : ∀ q ∈ params, Typed (.typeParam q)) : Keeps (I C) (bindGenerics p params) := by
  refine .forM fun q member => h.notedType (n := .typeParam q) own (typed q member) ?_
  cases bound : q.constraint with
  | none => infer_instance
  | some t => exact h.bindType own t (h.typed (typed q member) (by simp [Node.children, bound]))

/-! Functions -/

theorem discardBind {α β : Type} (m : Check α) (f : Unit → Check β) : (discard m >>= f) = m >>= fun _ => f () := by
  unfold discard
  rw [LawfulFunctor.map_const, Function.comp_apply, bind_map_left]

theorem bindParams (h : Binding I file tops Ok Typed) {p : Place} (own : p.file = file) {c : Option FunctionNode} {n : Node}
    (function : Ok c n) {scope : ScopeId} (opened : C scope (.node n)) {params : List Param}
    (inside : ∀ q ∈ params, .param q ∈ n.children) (ok : ∀ q ∈ params, Ok p.container (.param q)) :
    Keeps (I C) (bindParams p scope params) := by
  refine .forM fun q member => ?_
  simp only [discardBind]
  have value : SymbolFlags.meets (if q.optional then SymbolFlags.functionVariable ||| SymbolFlags.optional
      else SymbolFlags.functionVariable) SymbolFlags.value = true := by split <;> decide
  refine h.declared (n := .param q) own (ok q member) opened (.param q) (.param value function (inside q member)) fun _ => ?_
  cases type : q.type with
  | none => infer_instance
  | some t => exact h.bindType own t (h.within (ok q member) (by cases q; simp_all [Node.children, Param.type]) rfl)

/-- The scope of a function is opened for the node of the function. -/
theorem entered (h : Binding I file tops Ok Typed) {p : Place} (own : p.file = file) {scope : ScopeId} {n : Node}
    (function : Ok p.container n) (stands : Stands C scope n) {f : FunctionNode}
    (inside : ∀ q ∈ f.params, .param q ∈ n.children) (params : ∀ q ∈ f.params, Ok (some f) (.param q))
    (result : ∀ t ∈ f.result, Typed (.type t)) {g : Place × ScopeId → Check α}
    (rest : ∀ inner, Keeps (I (C.add inner n)) (g ({ file := p.file, container := some f }, inner))) :
    Keeps (I C) (enterFunction p scope f >>= g) := by
  unfold Typing.enterFunction
  rw [bind_assoc]
  refine h.opening function stands fun inner => ?_
  have opened : (C.add inner n) inner (.node n) := .inr ⟨rfl, rfl⟩
  dsimp only
  rw [bind_assoc]
  refine .bind (h.bindParams (p := { file := p.file, container := some f }) own function opened inside params) fun _ => ?_
  split
  next t there =>
    rw [bind_assoc]
    refine .bind (h.bindType (p := { file := p.file, container := some f }) own t (result t there)) fun _ => ?_
    rw [pure_bind]
    exact rest inner
  next =>
    rw [pure_bind]
    exact rest inner

/-! Declarations -/

theorem declareStatement (h : Binding I file tops Ok Typed) {p : Place} (own : p.file = file) {scope : ScopeId} {r : Region}
    (opened : C scope r) {st : Stmt} (ok : Ok p.container (.statement st))
    (declares : ∀ n flags, (n, flags) ∈ declaredNodes st → Introduces Ok tops r n flags flags.excludes) :
    Keeps (I C) (declareStatement p scope st) := by
  unfold Typing.declareStatement
  split
  next m kind declarations ambient =>
    split
    · infer_instance
    next other =>
      refine .bind (.forIn fun d member _ => ?_) fun _ => inferInstance
      have inner := h.inside ok (d := .declarator d) (by simp [Node.children, member]) rfl
      refine h.declared own inner opened (.declarator d) (declares _ _ ?_) fun x => .bind (h.detail x _ _) fun _ => inferInstance
      rw [declaredNodes, if_neg other]
      exact List.mem_map_of_mem member
  next mark name params result body isAsync ambient =>
    exact h.declared own ok opened (.function mark name params result body isAsync ambient)
      (declares _ _ List.mem_cons_self) fun x => h.detail x _ _
  next mark name typeParams parents members =>
    rw [← bind_pure (discard _), discardBind]
    exact h.declared own ok opened (.interface mark name typeParams parents members) (declares _ _ List.mem_cons_self)
      fun x => inferInstance
  next mark name typeParams type =>
    rw [← bind_pure (discard _), discardBind]
    exact h.declared own ok opened (.typeAlias mark name typeParams type) (declares _ _ List.mem_cons_self)
      fun x => inferInstance
  next mark name members isConst ambient =>
    exact h.declared own ok opened (.enum mark name members isConst ambient) (declares _ _ List.mem_cons_self)
      fun x => h.detail x _ _
  · infer_instance

theorem declareAll (h : Binding I file tops Ok Typed) {p : Place} (own : p.file = file) {scope : ScopeId} {r : Region}
    (opened : C scope r) {ss : List Stmt} (ok : ∀ st ∈ ss, Ok p.container (.statement st))
    (declares : ∀ st ∈ ss, ∀ n flags, (n, flags) ∈ declaredNodes st → Introduces Ok tops r n flags flags.excludes) :
    Keeps (I C) (ss.forM (Typing.declareStatement p scope)) :=
  .forM fun st member => h.declareStatement own opened (ok st member) (declares st member)

mutual

theorem hoistVar (h : Binding I file tops Ok Typed) {p : Place} (own : p.file = file) {scope : ScopeId} {r : Region}
    (opened : C scope r) (some : r = .files → tops ≠ []) : (st : Stmt) → Ok p.container (.statement st) → Keeps (I C) (hoistVar p scope st)
  | .var _ kind declarations ambient, ok => by
    unfold Typing.hoistVar
    split
    next same =>
      subst same
      refine .bind (.forIn fun d member _ => ?_) fun _ => inferInstance
      have inner := h.inside ok (d := .declarator d) (by simp [Node.children, member]) rfl
      exact h.declared own inner opened (.declarator d) (.hoisted r some ok member) fun x =>
        .bind (h.detail x _ _) fun _ => inferInstance
    · infer_instance
  | .block (.mk _ ss), ok => by
    unfold Typing.hoistVar
    exact h.hoistVars own opened some ss fun st member => h.inside ok (by simp [Node.children, member]) rfl
  | .cond _ _ yes no, ok => by
    unfold Typing.hoistVar
    refine .bind (h.hoistVar own opened some yes (h.inside ok (by simp [Node.children]) rfl)) fun _ => ?_
    cases no with
    | some s => exact h.hoistVar own opened some s (h.inside ok (by simp [Node.children]) rfl)
    | none => infer_instance
  | .loop _ _ body, ok => by
    unfold Typing.hoistVar
    exact h.hoistVar own opened some body (h.inside ok (by simp [Node.children]) rfl)
  | .expr .., _ | .ret .., _ | .function .., _ | .typeAlias .., _ | .interface .., _ | .enum .., _ | .brk .., _
  | .cont .., _ | .empty .., _ | .classDecl .., _ | .importDecl .., _ => by
    unfold Typing.hoistVar
    infer_instance

theorem hoistVars (h : Binding I file tops Ok Typed) {p : Place} (own : p.file = file) {scope : ScopeId} {r : Region}
    (opened : C scope r) (some : r = .files → tops ≠ []) : (ss : List Stmt) → (∀ st ∈ ss, Ok p.container (.statement st)) →
    Keeps (I C) (hoistVars p scope ss)
  | [], _ => by
    unfold Typing.hoistVars
    infer_instance
  | s :: ss, ok => by
    unfold Typing.hoistVars
    exact .bind (h.hoistVar own opened some s (ok s List.mem_cons_self)) fun _ =>
      h.hoistVars own opened some ss fun st member => ok st (List.mem_cons_of_mem s member)

end

/-! Expressions and statements -/

/-- A branch or loop body stands in a scope. -/
theorem nested (h : Binding I file tops Ok Typed) {p : Place} (own : p.file = file) {scope : ScopeId} {st : Stmt}
    (ok : Ok p.container (.statement st)) (stands : Stands C scope (.statement st)) {f : ScopeId → Check α}
    (rest : ∀ C inner, Stands C inner (.statement st) → Keeps (I C) (f inner)) :
    Keeps (I C) (bindStmt.enterNested p scope st >>= f) := by
  unfold bindStmt.enterNested
  split
  · rw [pure_bind]
    exact rest C scope stands
  · rw [bind_assoc]
    refine h.opening ok stands fun inner => ?_
    have opened : (C.add inner (.statement st)) inner (.node (.statement st)) := .inr ⟨rfl, rfl⟩
    rw [bind_assoc]
    refine .bind (h.declareStatement own opened ok fun n flags declared => .branch ok declared) fun _ => ?_
    rw [pure_bind]
    exact rest _ inner (.opened C inner (.self _))

mutual

theorem bindExpr (h : Binding I file tops Ok Typed) {C : Scopes} {p : Place} (own : p.file = file) {scope : ScopeId} :
    (e : Expr) → Ok p.container (.expression e) → Stands C scope (.expression e) → Keeps (I C) (bindExpr p scope e)
  | .number .., ok, _ | .string .., ok, _ | .boolean .., ok, _ => by
    unfold Typing.bindExpr
    exact h.noteFile own (.inl ok)
  | .ident m _, ok, stands => by
    unfold Typing.bindExpr
    exact h.noted own ok (.bind (h.noteScope ok stands) fun _ => h.noteContainer ok nofun)
  | .object _ properties, ok, stands => by
    unfold Typing.bindExpr
    refine h.noted own ok (h.bindProperties own properties (fun q member => ?_) fun q member => ?_)
    · exact h.inside ok (by simp [Node.children, member]) rfl
    · exact stands.child (by simp [Node.children, member])
  | .array _ elements, ok, stands => by
    unfold Typing.bindExpr
    refine h.noted own ok (h.bindExprs own elements (fun q member => ?_) fun q member => ?_)
    · exact h.inside ok (by simp [Node.children, member]) rfl
    · exact stands.child (by simp [Node.children, member])
  | .member _ target _, ok, stands | .unary _ _ target, ok, stands => by
    unfold Typing.bindExpr
    exact h.noted own ok (h.bindExpr own target (h.inside ok (by simp [Node.children]) rfl)
      (stands.child (by simp [Node.children])))
  | .await _ operand, ok, stands => by
    unfold Typing.bindExpr
    refine h.noted own ok (.bind (h.noteContainer ok nofun) fun _ => ?_)
    exact h.bindExpr own operand (h.inside ok (by simp [Node.children]) rfl) (stands.child (by simp [Node.children]))
  | .element _ left right, ok, stands | .binary _ _ left right, ok, stands | .assign _ _ left right, ok, stands => by
    unfold Typing.bindExpr
    refine h.noted own ok (.bind (h.bindExpr own left (h.inside ok (by simp [Node.children]) rfl) ?_) fun _ =>
      h.bindExpr own right (h.inside ok (by simp [Node.children]) rfl) ?_)
    all_goals exact stands.child (by simp [Node.children])
  | .call _ callee args, ok, stands => by
    unfold Typing.bindExpr
    refine h.noted own ok (.bind (h.bindExpr own callee (h.inside ok (by simp [Node.children]) rfl)
      (stands.child (by simp [Node.children]))) fun _ => h.bindExprs own args (fun q member => ?_) fun q member => ?_)
    · exact h.inside ok (by simp [Node.children, member]) rfl
    · exact stands.child (by simp [Node.children, member])
  | .conditional _ test yes no, ok, stands => by
    unfold Typing.bindExpr
    refine h.noted own ok (.bind (h.bindExpr own test (h.inside ok (by simp [Node.children]) rfl) ?_) fun _ =>
      .bind (h.bindExpr own yes (h.inside ok (by simp [Node.children]) rfl) ?_) fun _ =>
      h.bindExpr own no (h.inside ok (by simp [Node.children]) rfl) ?_)
    all_goals exact stands.child (by simp [Node.children])
  | .cast _ e type, ok, stands => by
    unfold Typing.bindExpr
    refine h.noted own ok (.bind (h.bindExpr own e (h.inside ok (by simp [Node.children]) rfl)
      (stands.child (by simp [Node.children]))) fun _ => ?_)
    exact h.bindType own type (h.within ok (by simp [Node.children]) rfl)
  | .arrow m params body result isAsync, ok, stands => by
    unfold Typing.bindExpr
    refine h.noted own ok (.bind (h.noteScope ok stands) fun _ => .bind (h.noteContainer ok nofun) fun _ => ?_)
    refine h.entered own ok stands (fun q member => ?_) (fun q member => ?_) (fun t member => ?_) fun inner => ?_
    · simp_all [Node.children, FunctionNode.ofArrow]
    · exact h.inside ok (by simp_all [Node.children, FunctionNode.ofArrow]) rfl
    · exact h.within ok (by simp_all [Node.children, FunctionNode.ofArrow]) rfl
    · have child : Node.ofBody body ∈ (Node.expression (.arrow m params body result isAsync)).children := by
        simp [Node.children]
      cases body with
      | block b =>
        exact h.bindBody (p := { file := p.file, container := some (.ofArrow m params (.block b) result isAsync) }) own rfl b
          (.inr ⟨rfl, rfl⟩) ok child (h.inside ok child rfl)
      | expr e =>
        exact h.bindExpr (p := { file := p.file, container := some (.ofArrow m params (.expr e) result isAsync) }) own e
          (h.inside ok child rfl) (.opened C inner (.part child (.self _)))

theorem bindExprs (h : Binding I file tops Ok Typed) {C : Scopes} {p : Place} (own : p.file = file) {scope : ScopeId} :
    (es : List Expr) → (∀ e ∈ es, Ok p.container (.expression e)) → (∀ e ∈ es, Stands C scope (.expression e)) →
    Keeps (I C) (bindExprs p scope es)
  | [], _, _ => by
    unfold Typing.bindExprs
    infer_instance
  | e :: es, ok, stands => by
    unfold Typing.bindExprs
    exact .bind (h.bindExpr own e (ok e List.mem_cons_self) (stands e List.mem_cons_self)) fun _ =>
      h.bindExprs own es (fun q member => ok q (List.mem_cons_of_mem e member)) fun q member =>
        stands q (List.mem_cons_of_mem e member)

theorem bindProperties (h : Binding I file tops Ok Typed) {C : Scopes} {p : Place} (own : p.file = file) {scope : ScopeId} :
    (ps : List Property) → (∀ q ∈ ps, Ok p.container (.property q)) → (∀ q ∈ ps, Stands C scope (.property q)) →
    Keeps (I C) (bindProperties p scope ps)
  | [], _, _ => by
    unfold Typing.bindProperties
    infer_instance
  | .mk m name value shorthand :: ps, ok, stands => by
    have first := ok (.mk m name value shorthand) List.mem_cons_self
    unfold Typing.bindProperties
    refine h.noted own first (.bind (h.bindExpr own value (h.inside first (by simp [Node.children]) rfl) ?_) fun _ => ?_)
    · exact (stands _ List.mem_cons_self).child (by simp [Node.children])
    · exact h.bindProperties own ps (fun q member => ok q (List.mem_cons_of_mem _ member)) fun q member =>
        stands q (List.mem_cons_of_mem _ member)

/-- The block that is the body of a function declares in the scope that is opened for the function. -/
theorem bindBody (h : Binding I file tops Ok Typed) {C : Scopes} {p : Place} (own : p.file = file) {scope : ScopeId}
    {c : Option FunctionNode} {n : Node} (function : isFunction n = true) :
    (b : Block) → C scope (.node n) → Ok c n → .statement (.block b) ∈ n.children → Ok p.container (.statement (.block b)) →
    Keeps (I C) (bindBody p scope b)
  | .mk m ss, opened, around, child, ok => by
    have inner : ∀ st ∈ ss, Ok p.container (.statement st) := fun st member =>
      h.inside ok (by simp [Node.children, member]) rfl
    have stands : Stands C scope (.statement (.block (.mk m ss))) := ⟨_, opened, .part child (.self _)⟩
    unfold Typing.bindBody
    refine h.noted own ok (.bind (h.noteScope ok stands) fun _ => .bind (h.hoistVars own opened nofun ss inner) fun _ => ?_)
    refine .bind (h.declareAll own opened inner fun st member n flags declared => ?_) fun _ => ?_
    · exact .body around function child member declared
    · exact h.bindStmts own ss inner fun st member => stands.child (by simp [Node.children, member])

theorem bindStmts (h : Binding I file tops Ok Typed) {C : Scopes} {p : Place} (own : p.file = file) {scope : ScopeId} :
    (ss : List Stmt) → (∀ st ∈ ss, Ok p.container (.statement st)) → (∀ st ∈ ss, Stands C scope (.statement st)) →
    Keeps (I C) (bindStmts p scope ss)
  | [], _, _ => by
    unfold Typing.bindStmts
    infer_instance
  | s :: ss, ok, stands => by
    unfold Typing.bindStmts
    exact .bind (h.bindStmt own s (ok s List.mem_cons_self) (stands s List.mem_cons_self)) fun _ =>
      h.bindStmts own ss (fun st member => ok st (List.mem_cons_of_mem s member)) fun st member =>
        stands st (List.mem_cons_of_mem s member)

theorem bindDeclarators (h : Binding I file tops Ok Typed) {C : Scopes} {p : Place} (own : p.file = file) {scope : ScopeId} :
    (ds : List VarDeclarator) → (∀ d ∈ ds, Ok p.container (.declarator d)) → (∀ d ∈ ds, Stands C scope (.declarator d)) →
    Keeps (I C) (bindDeclarators p scope ds)
  | [], _, _ => by
    unfold Typing.bindDeclarators
    infer_instance
  | .mk m name type (some e) :: ds, ok, stands => by
    have first := ok (.mk m name type (some e)) List.mem_cons_self
    have here := stands (.mk m name type (some e)) List.mem_cons_self
    have rest : Keeps (I C) (do Typing.bindExpr p scope e; Typing.bindDeclarators p scope ds) :=
      .bind (h.bindExpr own e (h.inside first (by simp [Node.children]) rfl) (here.child (by simp [Node.children]))) fun _ =>
        h.bindDeclarators own ds (fun d member => ok d (List.mem_cons_of_mem _ member)) fun d member =>
          stands d (List.mem_cons_of_mem _ member)
    unfold Typing.bindDeclarators
    refine h.noted own first (.bind (h.noteScope first here) fun _ => .bind (h.noteContainer first nofun) fun _ => ?_)
    cases type with
    | some t => exact .bind (h.bindType own t (h.within first (by simp [Node.children]) rfl)) fun _ => rest
    | none => exact rest
  | .mk m name type none :: ds, ok, stands => by
    have first := ok (.mk m name type none) List.mem_cons_self
    have here := stands (.mk m name type none) List.mem_cons_self
    have rest := h.bindDeclarators own ds (fun d member => ok d (List.mem_cons_of_mem _ member)) fun d member =>
      stands d (List.mem_cons_of_mem _ member)
    unfold Typing.bindDeclarators
    refine h.noted own first (.bind (h.noteScope first here) fun _ => .bind (h.noteContainer first nofun) fun _ => ?_)
    cases type with
    | some t => exact .bind (h.bindType own t (h.within first (by simp [Node.children]) rfl)) fun _ => rest
    | none => exact rest

theorem bindEnumMembers (h : Binding I file tops Ok Typed) {C : Scopes} {p : Place} (own : p.file = file) {scope : ScopeId} :
    (ms : List EnumMember) → (∀ m ∈ ms, Ok p.container (.enumMember m)) → (∀ m ∈ ms, Stands C scope (.enumMember m)) →
    Keeps (I C) (bindEnumMembers p scope ms)
  | [], _, _ => by
    unfold Typing.bindEnumMembers
    infer_instance
  | .mk m name init :: ms, ok, stands => by
    have first := ok (.mk m name init) List.mem_cons_self
    have here := stands (.mk m name init) List.mem_cons_self
    have rest := h.bindEnumMembers own ms (fun n member => ok n (List.mem_cons_of_mem _ member)) fun n member =>
      stands n (List.mem_cons_of_mem _ member)
    unfold Typing.bindEnumMembers
    refine h.noted own first ?_
    cases init with
    | some e =>
      refine .bind (h.bindExpr own e (h.inside first (by simp [Node.children]) rfl) ?_) fun _ => rest
      exact here.child (by simp [Node.children])
    | none => exact rest

theorem bindStmt (h : Binding I file tops Ok Typed) {C : Scopes} {p : Place} (own : p.file = file) {scope : ScopeId} :
    (st : Stmt) → Ok p.container (.statement st) → Stands C scope (.statement st) → Keeps (I C) (bindStmt p scope st)
  | .expr _ e, ok, stands => by
    unfold Typing.bindStmt
    exact h.noted own ok (h.bindExpr own e (h.inside ok (by simp [Node.children]) rfl) (stands.child (by simp [Node.children])))
  | .var _ _ declarations _, ok, stands => by
    unfold Typing.bindStmt
    refine h.noted own ok (h.bindDeclarators own declarations (fun d member => ?_) fun d member => ?_)
    · exact h.inside ok (by simp [Node.children, member]) rfl
    · exact stands.child (by simp [Node.children, member])
  | .ret m value, ok, stands => by
    have := h.error (C := C) m .returnOutsideFunction
    have given : Keeps (I C) (match value with
        | some e => Typing.bindExpr p scope e
        | none => pure ()) := by
      cases value with
      | some e =>
        exact h.bindExpr own e (h.inside ok (by simp [Node.children]) rfl) (stands.child (by simp [Node.children]))
      | none => infer_instance
    unfold Typing.bindStmt
    exact h.noted own ok (.bind (h.noteContainer ok nofun) fun _ => inferInstance)
  | .brk m, ok, _ => by
    have := h.error (C := C) m .breakOutsideLoop
    unfold Typing.bindStmt
    exact h.noted own ok inferInstance
  | .cont m, ok, _ => by
    have := h.error (C := C) m .continueOutsideLoop
    unfold Typing.bindStmt
    exact h.noted own ok inferInstance
  | .block (.mk m ss), ok, stands => by
    have inside : ∀ st ∈ ss, Ok p.container (.statement st) := fun st member =>
      h.inside ok (by simp [Node.children, member]) rfl
    unfold Typing.bindStmt
    refine h.noted own ok (h.opening ok stands fun inner => .bind (h.noteScope ok (.opened C inner (.self _))) fun _ => ?_)
    refine .bind (h.declareAll (r := .node (.statement (.block (.mk m ss)))) own (.inr ⟨rfl, rfl⟩) inside
      fun st member n flags declared => .block ok member declared) fun _ => h.bindStmts own ss inside fun st member => ?_
    exact .opened C inner (.part (by simp [Node.children, member]) (.self _))
  | .cond _ test yes no, ok, stands => by
    have branch : Ok p.container (.statement yes) := h.inside ok (by simp [Node.children]) rfl
    unfold Typing.bindStmt
    refine h.noted own ok (.bind (h.bindExpr own test (h.inside ok (by simp [Node.children]) rfl)
      (stands.child (by simp [Node.children]))) fun _ => ?_)
    -- What follows a branch is bound in the scope around it.
    have otherwise : Keeps (I C) (match no with
        | some s => do
          let inner ← bindStmt.enterNested p scope s
          Typing.bindStmt p inner s
        | none => pure ()) := by
      cases no with
      | some s =>
        have branch : Ok p.container (.statement s) := h.inside ok (by simp [Node.children]) rfl
        exact h.nested own branch (stands.child (by simp [Node.children])) fun C inner here => h.bindStmt own s branch here
      | none => infer_instance
    have first : Keeps (I C) (bindStmt.enterNested p scope yes >>= fun inner => Typing.bindStmt p inner yes) :=
      h.nested own branch (stands.child (by simp [Node.children])) fun C inner here => h.bindStmt own yes branch here
    have both := first.bind fun _ => otherwise
    rwa [bind_assoc] at both
  | .loop _ test body, ok, stands => by
    have branch : Ok p.container (.statement body) := h.inside ok (by simp [Node.children]) rfl
    unfold Typing.bindStmt
    refine h.noted own ok (.bind (h.bindExpr own test (h.inside ok (by simp [Node.children]) rfl)
      (stands.child (by simp [Node.children]))) fun _ => ?_)
    exact h.nested (p := { p with inLoop := true }) own branch (stands.child (by simp [Node.children])) fun C inner here =>
      h.bindStmt (p := { p with inLoop := true }) own body branch here
  | .function m name params result body isAsync ambient, ok, stands => by
    unfold Typing.bindStmt
    refine h.noted own ok (.bind (h.noteScope ok stands) fun _ => .bind (h.noteContainer ok nofun) fun _ => ?_)
    refine h.entered own ok stands (fun q member => ?_) (fun q member => ?_) (fun t member => ?_) fun inner => ?_
    · simp_all [Node.children, FunctionNode.ofDeclaration]
    · exact h.inside ok (by simp_all [Node.children, FunctionNode.ofDeclaration]) rfl
    · exact h.within ok (by simp_all [Node.children, FunctionNode.ofDeclaration]) rfl
    · cases body with
      | some b =>
        have child : Node.statement (.block b) ∈
            (Node.statement (.function m name params result (some b) isAsync ambient)).children := by simp [Node.children]
        exact h.bindBody (p := ⟨p.file, some (.ofDeclaration m params result (some b) isAsync ambient), false⟩) own rfl b
          (.inr ⟨rfl, rfl⟩) ok child (h.inside ok child rfl)
      | none => exact pureKeeps _
  | .typeAlias _ _ typeParams type, ok, _ => by
    unfold Typing.bindStmt
    refine h.noted own ok (.bind (h.bindGenerics own fun q member => ?_) fun _ => h.bindType own type ?_)
    · exact h.within ok (by simp [Node.children, member]) rfl
    · exact h.within ok (by simp [Node.children]) rfl
  | .interface _ _ typeParams parents members, ok, _ => by
    unfold Typing.bindStmt
    refine h.noted own ok (.bind (h.bindGenerics own fun q member => ?_) fun _ =>
      .bind (h.bindTypes own parents fun t member => ?_) fun _ => h.bindMembers own members fun m member => ?_)
    · exact h.within ok (by simp [Node.children, member]) rfl
    · exact h.within ok (by simp [Node.children, member]) rfl
    · exact h.within ok (by simp [Node.children, member]) rfl
  | .enum _ _ members _ _, ok, stands => by
    unfold Typing.bindStmt
    refine h.noted own ok (h.bindEnumMembers own members (fun m member => ?_) fun m member => ?_)
    · exact h.inside ok (by simp [Node.children, member]) rfl
    · exact stands.child (by simp [Node.children, member])
  | .empty _, ok, _ | .classDecl .., ok, _ | .importDecl .., ok, _ => by
    unfold Typing.bindStmt
    exact h.noteFile own (.inl ok)

end

/-- A file whose names are declared at the outermost level. -/
theorem bindFile {f : SourceFile} (h : Binding I f.name f.statements Ok Typed)
    (ok : ∀ st ∈ f.statements, Ok none (.statement st)) : Keeps (I .outermost) (bindFile f) := by
  have opened : Scopes.outermost globalScope .files := ⟨rfl, rfl⟩
  have hoisted : Keeps (I .outermost) (Typing.hoistVars { file := f.name } globalScope f.statements) := by
    -- No variable is hoisted from no statements.
    by_cases none : f.statements = []
    · rw [none]
      exact pureKeeps _
    · exact h.hoistVars (p := { file := f.name }) rfl opened (fun _ => none) f.statements ok
  refine hoisted.bind fun _ => .bind (h.declareAll (p := { file := f.name }) rfl opened ok ?_) fun _ => ?_
  · exact fun _ member _ _ declared => .top member declared
  · exact h.bindStmts (p := { file := f.name }) rfl f.statements ok fun _ _ => ⟨.files, opened, trivial⟩

end Binding

end Fragment.Typing
