import Fragment.Proofs.BinderSteps
import Fragment.Proofs.ExprsKept

/-! Declaring the names of files.
Only a declaration brings a name into a scope, so every scope knows names that may be declared, and what
is noted under the number of a declaration has such a name. Before any file nothing else is known. -/
namespace Fragment.Typing

open Fragment.Source (Mark Expr Node Stmt Tags)

variable {Q : String → Prop} {A : Tags} {K : SymbolId → Prop} {s : State}

/-! Declarations -/

theorem State.Labelled.declaredAt (l : s.Labelled Q A K) {x : SymbolId} (named : Named Q s.symbols x) (id : NodeId) :
    ({ s with symbolOf := s.symbolOf.insert id x } : State).Labelled Q A K := by
  refine ⟨l.resolved, fun other y found => ?_, l.scopes, l.symbols, l.signatures, l.deferred, l.kept⟩
  rw [Std.HashMap.getElem?_insert] at found
  split at found
  · cases found
    exact named
  · exact l.declared other y found

theorem State.Labelled.boundTo (l : s.Labelled Q A K) {name : String} {x : SymbolId} (plain : Q name)
    (named : Named Q s.symbols x) (scope : ScopeId) :
    ({ s with scopes := s.scopes.modify scope fun c => { c with names := c.names.insert name x } } : State).Labelled
      Q A K := by
  refine ⟨l.resolved, l.declared, ?_, l.symbols, l.signatures, l.deferred, l.kept⟩
  have bound (c : Scope) (known : ∀ key y, c.names[key]? = some y → Q key ∧ Named Q s.symbols y) (key : String) (y : SymbolId)
      (found : (c.names.insert name x)[key]? = some y) : Q key ∧ Named Q s.symbols y := by
    rw [Std.HashMap.getElem?_insert] at found
    split at found
    next same =>
      cases found
      exact ⟨beq_iff_eq.mp same ▸ plain, named⟩
    next => exact known key y found
  exact memModify (P := fun c : Scope => ∀ key y, c.names[key]? = some y → Q key ∧ Named Q s.symbols y)
    (f := fun c => { c with names := c.names.insert name x }) l.scopes bound

theorem Symbol.Labelled.addDeclaration {x : Symbol} {d : Declaration} (l : x.Labelled Q A) (labelled : d.Labelled Q A)
    (flags : SymbolFlags) : (x.addDeclaration d flags).Labelled Q A := by
  refine ⟨fun e member => ?_, fun e value => ?_⟩
  · rcases List.mem_append.mp member with old | new
    · exact l.declarations e old
    · exact List.mem_singleton.mp new ▸ labelled
  · unfold Symbol.addDeclaration at value
    dsimp only at value
    split at value
    · rcases Option.or_eq_some_iff.mp value with old | ⟨-, new⟩
      · exact l.value e old
      · exact Option.some.inj new ▸ labelled
    · exact l.value e value

theorem State.Labelled.merged (l : s.Labelled Q A K) {x : SymbolId} (named : Named Q s.symbols x) {d : Declaration}
    (labelled : d.Labelled Q A) (flags : SymbolFlags) :
    ({ s with symbols := s.symbols.modify x (·.addDeclaration d flags)
              symbolOf := s.symbolOf.insert d.mark.id x } : State).Labelled Q A K := by
  have changed := l.changed (x := x) (f := (·.addDeclaration d flags)) (fun _ => rfl) fun y l =>
    l.addDeclaration labelled flags
  exact changed.declaredAt (named.changed fun _ => rfl) d.mark.id

open Check

section Declare

variable {name : String} {d : Declaration} (plain : Q name) (labelled : d.Labelled Q A) (flags : SymbolFlags)

theorem namedOnce (symbols : Array Symbol) (d : Declaration) (plain : Q name) (flags : SymbolFlags) :
    Named Q (symbols.push (declaredOnce name d flags)) symbols.size :=
  ⟨_, Array.getElem?_push_size, plain⟩

theorem declaredOnceLabelled (name : String) (labelled : d.Labelled Q A) (flags : SymbolFlags) :
    (declaredOnce name d flags).Labelled Q A := by
  refine .addDeclaration ⟨?_, ?_⟩ labelled flags
  · simp
  · simp

include plain labelled

theorem declareKeeps (scope : ScopeId) (excludes : SymbolFlags) :
    Keeps (State.Labelled Q A K) (declare scope name flags excludes d) where
  keeps s x s' l run := by
    have named := namedOnce s.symbols d plain flags
    have pushed := l.pushed (declaredOnceLabelled name labelled flags)
    cases declareStep run with
    | orphan => exact (pushed.declaredAt named d.mark.id).same rfl
    | first => exact (pushed.boundTo plain named scope).declaredAt named d.mark.id
    | merged _ here known =>
      have named := (l.scopes _ (Array.mem_of_getElem? here) name _ known).2
      exact (l.merged named labelled flags).same rfl

end Declare

/-! The nodes of a file -/

/-- Where names may be declared and accesses are tagged. Types are looked at elsewhere. -/
def NodeLabelled (Q : String → Prop) (A : Tags) : Node → Prop
  | .statement s => s.Labelled Q A
  | .declarator d => d.Labelled Q A
  | .expression e => e.Labelled Q A
  | .property p => p.value.Labelled Q A
  | .param p => Q p.name
  | .enumMember m => ∀ e ∈ m.init, e.Labelled Q A
  | .type _ | .typeParam _ | .typeMember _ => False

theorem nodeLabelledBelow {n c : Node} (l : NodeLabelled Q A n) (child : c ∈ n.children) (other : c.isTyping = false) :
    NodeLabelled Q A c := by
  unfold Node.children at child
  split at child <;>
    simp only [List.mem_cons, List.mem_append, List.mem_map, List.not_mem_nil, or_false, Option.mem_toList] at child
  all_goals
    simp only [NodeLabelled, Expr.Labelled, Source.labelledExprsIff, Source.labelledPropertiesIff] at l
  · exact child ▸ l
  · obtain ⟨d, member, rfl⟩ := child
    exact (Source.labelledDeclaratorsIff _).mp l d member
  · obtain ⟨e, rfl, rfl⟩ := child
    exact l
  · obtain ⟨s, member, rfl⟩ := child
    exact (Source.labelledStmtsIff _).mp l s member
  · next no =>
    cases no with
    | none =>
      rcases child with rfl | rfl | ⟨s, there, -⟩
      · exact l.1
      · exact l.2.1
      · cases there
    | some no =>
      rcases child with rfl | rfl | ⟨s, ⟨⟩, rfl⟩
      · exact l.1
      · exact l.2.1
      · exact l.2.2
  · rcases child with rfl | rfl
    · exact l.1
    · exact l.2
  · next body _ _ =>
    rcases child with (⟨q, member, rfl⟩ | ⟨t, -, rfl⟩) | ⟨⟨m, ss⟩, rfl, rfl⟩
    · cases body <;> exact l.2.1 q member
    · cases other
    · exact l.2.2
  · rcases child with ⟨q, -, rfl⟩ | rfl <;> cases other
  · rcases child with (⟨q, -, rfl⟩ | ⟨t, -, rfl⟩) | ⟨m, -, rfl⟩ <;> cases other
  · obtain ⟨m, member, rfl⟩ := child
    exact (Source.labelledMembersIff _).mp l.2 m member
  · rcases child with ⟨t, -, rfl⟩ | ⟨e, rfl, rfl⟩
    · cases other
    · exact l.2 e rfl
  · obtain ⟨q, member, rfl⟩ := child
    exact l q member
  · obtain ⟨e, member, rfl⟩ := child
    exact l e member
  · exact child ▸ l.2
  · rcases child with rfl | rfl
    · exact l.2.1
    · exact l.2.2
  · rcases child with rfl | ⟨e, member, rfl⟩
    · exact l.1
    · exact l.2 e member
  · exact child ▸ l
  · exact child ▸ l
  · rcases child with rfl | rfl
    · exact l.1
    · exact l.2
  · rcases child with rfl | rfl
    · exact l.1
    · exact l.2
  · rcases child with rfl | rfl | rfl
    · exact l.1
    · exact l.2.1
    · exact l.2.2
  · rcases child with rfl | rfl
    · exact l
    · cases other
  · rcases child with (⟨q, member, rfl⟩ | ⟨t, -, rfl⟩) | rfl
    · exact l.1 q member
    · cases other
    · next body _ _ =>
      cases body <;> exact l.2
  · exact child ▸ l
  · obtain ⟨t, -, rfl⟩ := child
    cases other
  · obtain ⟨e, rfl, rfl⟩ := child
    exact l e rfl

theorem nodeDeclaresLabelled {n : Node} {name : String} {d : Declaration} (l : NodeLabelled Q A n)
    (declares : NodeDeclares n name d) : Q name ∧ d.Labelled Q A := by
  cases declares with
  | declarator d => exact l
  | param p => exact ⟨l, trivial⟩
  | function mark name params result body isAsync ambient =>
    have plain : Q name := by cases body <;> exact l.1
    refine ⟨plain, Queries.declarationLabelled (fun b is => ?_) mark params result isAsync ambient⟩
    cases is
    exact l.2.2
  | interface | typeAlias => exact ⟨l, trivial⟩
  | enum => exact ⟨l.1, trivial⟩

theorem labelledBinding (file : String) (tops : List Source.Stmt) :
    Binding (fun _ => State.Labelled Q A K) file tops (fun _ => NodeLabelled Q A) fun _ => True where
  fewer _ := id
  below l child := by
    split
    next => trivial
    next other => exact nodeLabelledBelow l child (by simpa using other)
  typed _ _ := trivial
  noteFile _ _ := .modified fun _ l => l.same rfl
  noteScope _ _ := .modified fun _ l => l.same rfl
  noteContainer _ _ := .modified fun _ l => l.same rfl
  newScope _ _ l run := by
    cases run
    refine ⟨l.resolved, l.declared, fun c member => ?_, l.symbols, l.signatures, l.deferred, l.kept⟩
    rcases Array.mem_push.mp member with old | rfl
    · exact l.scopes c old
    · intro key x found
      simp at found
  error mark m := labelledReports mark m []
  declare _ l _ declares _ := by
    obtain ⟨plain, labelled⟩ := nodeDeclaresLabelled l declares
    exact .bind (.modified fun _ l => l.same rfl) fun _ => declareKeeps plain labelled _ _ _
  detail x _ _ := labelledDetails fun _ => rfl

theorem bindFileKeeps {f : Source.SourceFile} (labelled : Source.LabelledStmts Q A f.statements) :
    Keeps (State.Labelled Q A K) (bindFile f) :=
  (labelledBinding f.name f.statements).bindFile fun st member =>
    (Source.labelledStmtsIff f.statements).mp labelled st member

/-! The first state -/

theorem initialLabelled (plain : Q "undefined") : State.initial.Labelled Q A fun _ => False := by
  have named : Named Q State.initial.symbols undefinedSymbol := ⟨_, rfl, plain⟩
  refine ⟨fun id x found => ?_, fun id x found => ?_, fun c member key x found => ?_, fun x member => ?_, nofun, nofun, nofun⟩
  · simp [State.initial] at found
  · simp [State.initial] at found
  · obtain rfl : c = ⟨none, ({} : Std.HashMap String SymbolId).insert "undefined" undefinedSymbol⟩ := by
      simpa [State.initial] using member
    rw [Std.HashMap.getElem?_insert] at found
    split at found
    next same =>
      cases found
      exact ⟨beq_iff_eq.mp same ▸ plain, named⟩
    next => simp at found
  · simp only [State.initial, List.mem_toArray, List.mem_singleton] at member
    subst member
    exact ⟨by simp, by simp⟩

theorem startLabelled (plain : Q "undefined") {files : List Source.SourceFile}
    (labelled : ∀ f ∈ files, Source.LabelledStmts Q A f.statements) (started : start files = .ok s) :
    s.Labelled Q A fun _ => False := by
  have kept : Keeps (State.Labelled Q A fun _ => False) (files.forM bindFile) :=
    .forM fun f member => bindFileKeeps (labelled f member)
  unfold start at started
  cases run : (files.forM bindFile).run State.initial with
  | error fault =>
    rw [run] at started
    cases started
  | ok result =>
    rw [run] at started
    cases started
    exact kept.keeps _ _ _ (initialLabelled plain) run

end Fragment.Typing
