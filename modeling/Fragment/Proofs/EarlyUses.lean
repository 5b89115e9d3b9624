import Fragment.Proofs.OutsideNames
import Fragment.Proofs.Territories

/-! Names that are used too early.
A name inside a function comes too early for a block variable of the function if it stands before the end of the
declaration, or outside of the block or branch in which the variable is declared. In the first case the checker reports it
when it resolves it to the variable, in the second it never does. So in a program that has been loaded such a name does not
stand for the variable, or something is reported in its file. -/
namespace Fragment.Source

/-- The names of a file are told apart by their numbers, and an access has none of these. -/
def SourceFile.identifiers (f : SourceFile) : Tags where
  access i := ∀ m name, f.HasNode (.expression (.ident m name)) → i ≠ m.id
  name mark := ∀ m name, f.HasNode (.expression (.ident m name)) → mark.id = m.id → mark = m

variable {f : SourceFile}

theorem SourceFile.Apart.fits (apart : f.Apart) {n : Node} (has : f.HasNode n) : f.identifiers.Fits n := by
  unfold Tags.Fits
  split
  · exact fun m name there same => congrArg Node.mark (apart.same has there same)
  · exact fun m name there same => nomatch apart.same has there same
  · exact fun m name there same => nomatch apart.same has there same
  · trivial

theorem SourceFile.fitsForeign {n : Node} (foreign : n.All (¬f.HasNumber ·)) {m : Node} (within : m.Within n) :
    f.identifiers.Fits m := by
  have other {k : Mark} {name : String} (has : f.HasNode (.expression (.ident k name))) : m.mark.id ≠ k.id :=
    fun same => foreign m within ⟨_, has, same.symm⟩
  unfold Tags.Fits
  split
  · exact fun k name has same => absurd same (other has)
  · exact fun k name has => other has
  · exact fun k name has => other has
  · trivial

end Fragment.Source

namespace Fragment.Typing

open Source (Mark Expr Node Block Stmt SourceFile VarDeclarator Tags anyName)
open Check

/-- A name inside the body of a function that comes too early for a variable of the body. -/
structure Premature (f : SourceFile) (b : Block) (st : Stmt) (d : VarDeclarator) (mark : Mark) : Prop where
  inside : ∃ name, (Node.expression (.ident mark name)).Within (.statement (.block b))
  early : isBefore mark.extent.start d.mark.extent.stop = true ∨ ¬Sees f st mark.id

/-- What has been found out about the nodes of a file by the time that all files have been bound. -/
structure State.Ready (f : SourceFile) (t : State) : Prop where
  placed : ∀ g b st d, OwnVariable f g b st d → t.Holding f g b st d .outermost
  noted : ∀ n, f.HasNode n → ∀ note ∈ notesOf n, ∃ name, t.Noted name note

/-- Names that come too early for a variable do not stand for it, or something is reported. -/
def State.Heeds (f : SourceFile) (t s : State) : Prop :=
  ∀ g b st d, OwnVariable f g b st d → ∀ mark, Premature f b st d mark → ∀ x, t.symbolOf[d.mark.id]? = some x →
    s.resolvedSymbols[mark.id]? = some x → s.reported f.name ≠ []

section Heeds

variable {f : SourceFile} {g : FunctionNode} {b : Block} {st : Stmt} {d : VarDeclarator} {mark : Mark} {s t u : State}

/-- A variable is found only where it is seen. -/
theorem State.Divided.sees {R : Nat → Prop} {C : Scopes} {T : ScopeId → Nat → Prop} (divided : t.Divided d R C T)
    (scopes : s.scopes = t.scopes) {x : SymbolId} (declared : t.symbolOf[d.mark.id]? = some x) {name : String}
    {meaning : SymbolFlags} {fuel : Nat} {scope : ScopeId} (found : s.resolve name meaning fuel scope = some x) {i : Nat}
    (stands : T scope i) : R i := by
  induction fuel generalizing scope with
  | zero => cases found
  | succ fuel ih =>
    unfold State.resolve at found
    rw [scopes] at found
    split at found
    · cases found
    next c here =>
      dsimp only at found
      split at found
      next y known =>
        cases found
        exact divided.kept scope c name x here (Option.filter_eq_some_iff.mp known).1 declared i stands
      next outer _ parent => exact ih found (divided.inside scope c outer here parent i stands)
      next => cases found

theorem Premature.node (own : OwnVariable f g b st d) (early : Premature f b st d mark) :
    ∃ name, f.HasNode (.expression (.ident mark name)) :=
  early.inside.imp fun _ within => own.body.within within

/-- A name from which a variable is not seen does not stand for it. -/
theorem State.Ready.unseen (ready : t.Ready f) (own : OwnVariable f g b st d) (early : Premature f b st d mark)
    (bound : t.Bound s) {x : SymbolId} (declared : t.symbolOf[d.mark.id]? = some x) {name : String} {meaning : SymbolFlags}
    {fuel : Nat} (found : s.resolve name meaning fuel (t.scopeOf.getD mark.id globalScope) = some x) : Sees f st mark.id := by
  obtain ⟨y, has⟩ := early.node own
  obtain ⟨_, noted⟩ := ready.noted _ has (.scope mark.id) (by simp [notesOf])
  obtain ⟨scope, there⟩ := Option.isSome_iff_exists.mp (Std.HashMap.mem_iff_isSome_getElem?.mp noted)
  obtain ⟨T, divided⟩ := (ready.placed g b st d own).territories
  rw [Std.HashMap.getD_eq_getD_getElem?, there] at found
  exact divided.sees bound.scopes declared found (divided.stands mark.id scope there)

theorem State.Ready.filed (ready : t.Ready f) (own : OwnVariable f g b st d) (bound : t.Bound s) {n : Node} (has : f.HasNode n)
    (due : Note.file n.mark.id ∈ notesOf n) : s.fileOf[n.mark.id]? = some f.name := by
  obtain ⟨name, noted⟩ := ready.noted n has _ due
  have there : t.fileOf[n.mark.id]? = some name := noted
  rw [bound.files, there, (ready.placed g b st d own).filed _ name there ⟨n, has, rfl⟩]

theorem State.Ready.contained (ready : t.Ready f) (own : OwnVariable f g b st d) (bound : t.Bound s) {n : Node}
    (within : n.Within (.statement (.block b))) (due : Note.container n.mark.id ∈ notesOf n) :
    s.container? n.mark = some g := by
  obtain ⟨_, noted⟩ := ready.noted n (own.body.within within) _ due
  obtain ⟨c, there⟩ := Option.isSome_iff_exists.mp (Std.HashMap.mem_iff_isSome_getElem?.mp noted)
  obtain rfl := (ready.placed g b st d own).contained _ c there ⟨n, within, rfl⟩
  rw [State.container?, bound.contained, there]
  rfl

theorem reportedReports (file : String) (mark : Mark) (m : Message) (notes : List String) :
    Keeps (fun s => s.reported file ≠ []) (report mark m notes) := .modified fun s said => by
  simp only [State.reported, Std.HashMap.getD_insert]
  split
  · simp
  · exact said

/-- An error about a node is reported with the file of the node. -/
theorem errorReported {file : String} {m : Message} (own : s.fileOf[mark.id]? = some file)
    (run : (error mark m).run s = .ok ((), u)) : u.reported file ≠ [] := by
  cases run
  simp [State.reported, own]

/-- A name that stands before the end of a declaration in its own function is reported. -/
theorem beforeReported (ready : t.Ready f) (own : OwnVariable f g b st d) (early : Premature f b st d mark) (bound : t.Bound s)
    (before : isBefore mark.extent.start d.mark.extent.stop = true) {name : String} {y : Symbol}
    (value : y.valueDeclaration = some (.variable d)) (block : y.flags.meets SymbolFlags.blockVariable = true)
    (run : (checkDeclaredBefore mark name y).run s = .ok ((), u)) : u.reported f.name ≠ [] := by
  obtain ⟨spelled, inside⟩ := early.inside
  have part : (Node.declarator d).Within (.statement (.block b)) := by
    obtain ⟨m, kind, declarations, ambient, rfl, -, member⟩ := own.form
    exact .trans (.part (List.mem_map_of_mem member) (.self _)) own.within
  have file := ready.filed own bound (own.body.within inside) (by simp [notesOf, Node.mark, Expr.mark])
  have file' := ready.filed own bound own.node (by simp [notesOf, Node.mark])
  have container := ready.contained own bound inside (by simp [notesOf, Node.mark, Expr.mark])
  have container' := ready.contained own bound part (by simp [notesOf, Node.mark])
  unfold Node.mark Expr.mark at file file' container container'
  dsimp only at file file' container container'
  unfold checkDeclaredBefore at run
  rw [value] at run
  dsimp only at run
  rw [if_pos block, runGet] at run
  rw [if_pos (by simp [file, file', container, container', before])] at run
  exact errorReported file run

theorem useReported (ready : t.Ready f) (own : OwnVariable f g b st d) (early : Premature f b st d mark) (bound : t.Bound s)
    {x : SymbolId} (declared : t.symbolOf[d.mark.id]? = some x) {name : String} {accessed : Bool} {fuel : Nat}
    (found : s.resolve name SymbolFlags.value fuel (t.scopeOf.getD mark.id globalScope) = some x)
    (run : (useName mark name accessed x).run s = .ok ((), u)) : u.reported f.name ≠ [] := by
  have before := early.early.resolve_right (not_not_intro (ready.unseen own early bound declared found))
  obtain ⟨value, block⟩ := (ready.placed g b st d own).declared x declared
  have same := bound.symbols x (oldSymbol value)
  simp only [Symbol.declared, Prod.mk.injEq] at same
  obtain ⟨⟨⟩, v, noted, run⟩ := runBind run
  cases noted
  obtain ⟨y, w, looked, run⟩ := runBind run
  cases looked
  have marked : t.Bound { s with resolvedSymbols := s.resolvedSymbols.insert mark.id x } := bound.same rfl rfl rfl rfl rfl rfl
  dsimp only at run
  split at run
  · obtain ⟨⟨⟩, w, asked, run⟩ := runBind run
    exact beforeReported ready own early ((boundReports ..).keeps _ _ _ marked asked) before (same.2.2.2.1.trans value) (same.2.1 ▸ block) run
  · exact beforeReported ready own early marked before (same.2.2.2.1.trans value) (same.2.1 ▸ block) run

/-- The checker heeds what comes too early. -/
theorem heedsWatches (ready : t.Ready f) : Watches f.identifiers t (t.Heeds f) where
  same s s' heeds resolved diagnostics := by
    intro g b st d own mark early x declared stands
    rw [State.reported, diagnostics]
    exact heeds g b st d own mark early x declared (resolved ▸ stands)
  report mark m notes := ⟨fun s a s' heeds run => by
    intro g b st d own other early x declared stands
    cases run
    exact (reportedReports f.name mark m notes).keeps s () _ (heeds g b st d own other early x declared stands) rfl⟩
  access s id x heeds is := by
    intro g b st d own mark early y declared stands
    obtain ⟨name, has⟩ := early.node own
    rw [Std.HashMap.getElem?_insert, if_neg (by simpa using is mark name has)] at stands
    exact heeds g b st d own mark early y declared stands
  use s s' mark name accessed x fuel bound heeds named found run := by
    intro g b st d own other early y declared stands
    obtain ⟨spelled, has⟩ := early.node own
    have resolved : s'.resolvedSymbols = s.resolvedSymbols.insert mark.id x :=
      useKeeps (I := fun u => u.resolvedSymbols = s.resolvedSymbols.insert mark.id x) (fun _ _ => .modified fun _ => id) rfl run
    rw [resolved, Std.HashMap.getElem?_insert] at stands
    split at stands
    next same =>
      cases stands
      obtain rfl := named other spelled has (beq_iff_eq.mp same)
      exact useReported ready own early bound declared found run
    next =>
      exact useKeeps (I := fun u => u.reported f.name ≠ []) (fun mark m => reportedReports f.name mark m [])
        (heeds g b st d own other early y declared stands) run

end Heeds

/-! Programs -/

/-- A question about nodes of a program, and not for its code. -/
def Question.About (files : List SourceFile) : Question → Prop
  | .exprType e _ => ∃ f ∈ files, f.HasNode (.expression e)
  | .statements ss => ∀ st ∈ ss, ∃ f ∈ files, f.HasNode (.statement st)
  | .body g => ∃ f ∈ files, ∃ n, f.HasNode n ∧ innerContainer none n = some g
  | .file f => f ∈ files
  | .code .. => False
  | _ => True

/-- The function of a node is labelled if all nodes in it are tagged as what they are. -/
theorem containerLabelled {A : Tags} {n : Node} {g : FunctionNode} (fits : ∀ m, m.Within n → A.Fits m)
    (function : innerContainer none n = some g) : g.Labelled anyName A := by
  unfold innerContainer at function
  split at function
  next m _ params result body isAsync ambient =>
    cases function
    refine Queries.declarationLabelled (fun b is => ?_) m params result isAsync ambient
    cases is
    exact b.labelled (Source.fitsBelow fits (by simp [Node.children]))
  next m params body result isAsync =>
    cases function
    exact Queries.arrowLabelled (body.labelled (Source.fitsBelow fits (by simp [Node.children]))) m params result isAsync
  next => cases function

/-- What the steps of the checker keep is kept by questions about a program. -/
theorem aboutKeeps {A : Tags} {I : State → Prop} [Lasting anyName A I] {files : List SourceFile}
    (fits : ∀ f ∈ files, ∀ n, f.HasNode n → A.Fits n) (n : Nat) {question : Question} (about : question.About files)
    {s t : State} (holds : I s) (answered : question.after (.ofDepth n) s = some t) : I t := by
  have level := depthLevel (I := I) n
  have below {f : SourceFile} (member : f ∈ files) {n : Node} (has : f.HasNode n) : ∀ m, m.Within n → A.Fits m :=
    fun m within => fits f member m (has.within within)
  cases question with
  | exprType e expected =>
    obtain ⟨f, member, has⟩ := about
    exact (level.typeOfExpr e (e.labelled (below member has)) expected).after holds answered
  | statements ss =>
    refine (Queries.checkStatementsKeeps ss (Source.labelledStmts ss fun st inside => ?_)).after holds answered
    obtain ⟨f, member, has⟩ := about st inside
    exact below member has
  | body g =>
    obtain ⟨f, member, n, has, function⟩ := about
    exact (Queries.checkBodyKeeps (containerLabelled (below member has) function)).after holds answered
  | bodies fuel => exact (Queries.checkDeferredKeeps fuel).after holds answered
  | file f =>
    refine (checkFileKeeps (Source.labelledStmts f.statements fun st stands => ?_)).after holds answered
    exact below about ⟨st, stands, .self _⟩
  | code => exact about.elim
  | _ => exact Keeps.after inferInstance holds answered

/-- A file of a program whose nodes are told apart, by numbers that no other file has. -/
structure Distinguished (files : List SourceFile) (f : SourceFile) : Prop where
  member : f ∈ files
  apart : f.Apart
  foreign : ∀ h ∈ files, h = f ∨ ∀ st ∈ h.statements, (Node.statement st).All (¬f.HasNumber ·)

section Distinguished

variable {files : List SourceFile} {f : SourceFile} {s t : State}

theorem Distinguished.fits (told : Distinguished files f) : ∀ h ∈ files, ∀ n, h.HasNode n → f.identifiers.Fits n := by
  rintro h member n ⟨st, stands, within⟩
  rcases told.foreign h member with rfl | foreign
  · exact told.apart.fits ⟨st, stands, within⟩
  · exact Source.SourceFile.fitsForeign (foreign st stands) within

theorem Distinguished.ready (told : Distinguished files f) (started : start files = .ok t) : t.Ready f where
  placed _ _ _ _ own := startHolding told.apart own told.foreign started
  noted n has note due := by
    obtain ⟨u, ran, noted, -⟩ := startEnds files
    cases started.symm.trans ran
    obtain ⟨h, -, there⟩ := noted f told.member n has note due
    exact ⟨h.name, there⟩

/-- Whatever is asked about the nodes of a program, the checker heeds what comes too early. -/
theorem Distinguished.heeds (told : Distinguished files f) (started : start files = .ok t)
    (asked : t.Follows (Question.About files) s) : t.Heeds f s := by
  have := (heedsWatches (told.ready started)).lasting anyName
  let Watched (u : State) : Prop := u.Labelled anyName f.identifiers (fun _ => False) ∧ t.Bound u ∧ t.Heeds f u
  suffices holds : Watched s from holds.2.2
  induction asked with
  | none =>
    have labelled (h : SourceFile) (member : h ∈ files) : Source.LabelledStmts anyName f.identifiers h.statements :=
      Source.labelledStmts _ fun st stands n within => told.fits h member n ⟨st, stands, within⟩
    refine ⟨startLabelled trivial labelled started, .refl t, fun g b st d own mark early x declared stands => ?_⟩
    simp [startUnresolved started] at stands
  | next n _ about answered before => exact aboutKeeps (I := Watched) told.fits n about before answered

end Distinguished

end Fragment.Typing

namespace Fragment.Compilation

open Source (SourceFile Mark Block Stmt VarDeclarator)
open Typing (State Question OwnVariable Premature FunctionNode SymbolId Distinguished)

variable {c : Compilation} {f : SourceFile}

theorem Numbered.distinguished (numbered : c.Numbered) (member : f ∈ c.sourceFiles) : Distinguished c.sourceFiles f := by
  have known {h : SourceFile} (member : h ∈ c.sourceFiles) : ∃ path, (path, h) ∈ c.sources ∧ c.source? path = some h := by
    obtain ⟨path, -, found⟩ := List.mem_filterMap.mp member
    obtain ⟨_, _, sources, _⟩ := List.lookup_eq_some_iff.mp found
    exact ⟨path, by simp [sources], found⟩
  obtain ⟨path, there, found⟩ := known member
  obtain ⟨low, high, spread, -⟩ := numbered.spread _ there
  refine ⟨member, ⟨low, high, spread⟩, fun h other => ?_⟩
  obtain ⟨path', there', found'⟩ := known other
  by_cases same : path' = path
  · subst same
    exact .inl (Option.some.inj (found'.symm.trans found))
  · refine .inr fun st stands m within ⟨n, ⟨st', stands', inside⟩, number⟩ => ?_
    exact numbered.disjoint _ there' _ there same st stands st' stands' m.mark.id ⟨m, within, rfl⟩ ⟨n, inside, number⟩

/-- Whatever has been asked about the nodes of a program that has been loaded: a name that comes too early for a block
variable of a function without functions inside it does not stand for the variable, or something is reported in its file. -/
theorem earlyUsesReported {roots : List String} {options : Options} {files : Files} {t s : State}
    (loaded : load roots options files = .ok c) (member : f ∈ c.sourceFiles) (started : c.checker = .ok t)
    (asked : t.Follows (Question.About c.sourceFiles) s) {g : FunctionNode} {b : Block} {st : Stmt} {d : VarDeclarator}
    (own : OwnVariable f g b st d) {mark : Mark} (early : Premature f b st d mark) {x : SymbolId}
    (declared : t.symbolOf[d.mark.id]? = some x) (stands : s.resolvedSymbols[mark.id]? = some x) : s.reported f.name ≠ [] :=
  ((loadNumbered loaded).distinguished member).heeds (okMapError started) asked g b st d own mark early x declared stands

end Fragment.Compilation
