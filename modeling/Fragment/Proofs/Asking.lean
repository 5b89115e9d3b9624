import Fragment.Proofs.EmissionKept
import Fragment.Proofs.Printing

/-! Questions to the checker, one after the other.
The checker is asked about files, nodes and types, and asks itself in between. What it has noted, checked and reported
stays, so what has once been looked at to its end is not looked at again. -/
namespace Fragment.Typing

open Source (Expr SourceFile TypeNode Stmt Tags anyName)
open Check

/-- What the checker can be asked. -/
inductive Question where
  | exprType (e : Expr) (expected : Option TypeId)
  | symbolType (x : SymbolId)
  | declared (x : SymbolId)
  | typeNode (node : TypeNode) (scope : TypeScope)
  | instantiate (t : TypeId) (mapper : Mapper)
  | members (t : TypeId)
  | property (t : TypeId) (name : String)
  | properties (t : TypeId)
  | signatures (t : TypeId)
  | result (g : SignatureId)
  | relation (r : Relation) (explain : Bool) (source target : TypeId)
  | text (t : TypeId) (depth : Nat)
  | apparent (t : TypeId)
  | awaited (t : TypeId)
  | statements (ss : List Stmt)
  | body (f : FunctionNode)
  | bodies (fuel : Nat)
  | file (f : SourceFile)
  | code (f : SourceFile) (kind : ModuleKind)

/-- What is known once a step has ended, if it ends. -/
def stateAfter {α : Type} (m : Check α) (s : State) : Option State := (m.run s).toOption.map (·.2)

/-- What is known once a question has been answered. -/
def Question.after (q : Queries) (s : State) : Question → Option State
  | .exprType e expected => stateAfter (q.typeOfExpr e expected) s
  | .symbolType x => stateAfter (q.typeOfSymbol x) s
  | .declared x => stateAfter (q.declaredType x) s
  | .typeNode node scope => stateAfter (q.typeOfNode node scope) s
  | .instantiate t mapper => stateAfter (q.instantiate t mapper) s
  | .members t => stateAfter (q.members t) s
  | .property t name => stateAfter (q.property t name) s
  | .properties t => stateAfter (q.properties t) s
  | .signatures t => stateAfter (q.signatures t) s
  | .result g => stateAfter (q.resultOf g) s
  | .relation r explain source target => stateAfter (q.relate r explain source target) s
  | .text t depth => stateAfter (q.write t depth) s
  | .apparent t => stateAfter (q.apparent t) s
  | .awaited t => stateAfter (q.awaited t) s
  | .statements ss => stateAfter (q.checkStatements ss) s
  | .body f => stateAfter (q.checkBody f) s
  | .bodies fuel => stateAfter (q.checkDeferred fuel) s
  | .file f => stateAfter (checkFile f) s
  | .code f kind => match Emit.emitFile f kind s with
    | .ok (_, t) => some t
    | .error _ => none

/-- Questions that are allowed, asked at any levels, lead from one state to another. -/
inductive State.Follows (allowed : Question → Prop) (s : State) : State → Prop
  | none : s.Follows allowed s
  | next {t u : State} {question : Question} (n : Nat) (before : s.Follows allowed t) (asks : allowed question)
      (answered : question.after (.ofDepth n) t = some u) : s.Follows allowed u

/-- Any questions lead from one state to another. -/
def State.Leads (s t : State) : Prop := s.Follows (fun _ => True) t

theorem stateAfterIff {α : Type} {m : Check α} {s t : State} :
    stateAfter m s = some t ↔ ∃ a, m.run s = .ok (a, t) := by
  unfold stateAfter
  cases m.run s with
  | error f => simp [Except.toOption]
  | ok result => simp [Except.toOption, Prod.ext_iff]

theorem Keeps.after {I : State → Prop} {α : Type} {m : Check α} {s t : State} (keeps : Keeps I m) (holds : I s)
    (ended : stateAfter m s = some t) : I t := by
  obtain ⟨a, run⟩ := stateAfterIff.mp ended
  exact keeps.keeps s a t holds run

section Histories

variable {I : State → Prop} [lasting : Lasting anyName Tags.any I] {s t u : State}

/-- What the steps of the checker keep is kept by every question. -/
theorem questionKeeps (n : Nat) (question : Question) (holds : I s) (answered : question.after (.ofDepth n) s = some t) :
    I t := by
  have level := depthLevel (I := I) n
  cases question with
  | exprType e expected => exact (level.typeOfExpr e e.labelledAny expected).after holds answered
  | statements ss => exact (Queries.checkStatementsKeeps ss (Source.labelledAnyStmts ss)).after holds answered
  | body f => exact (Queries.checkBodyKeeps f.labelledAny).after holds answered
  | bodies fuel => exact (Queries.checkDeferredKeeps fuel).after holds answered
  | file f => exact (checkFileKeeps (Source.labelledAnyStmts f.statements)).after holds answered
  | code f kind =>
    unfold Question.after at answered
    dsimp only at answered
    split at answered
    next made =>
      cases answered
      exact Emit.emitFileKeeps holds made
    next => cases answered
  | _ => exact Keeps.after inferInstance holds answered

theorem State.Leads.keeps (leads : s.Leads t) (holds : I s) : I t := by
  induction leads with
  | none => exact holds
  | next n _ _ answered ih => exact questionKeeps n _ ih answered

end Histories

/-! What stays checked -/

/-- What has been checked in `s` has been checked in `s'`. -/
structure State.StaysChecked (s s' : State) : Prop where
  bodies : ∀ id, s.checkedBodies.contains id = true → s'.checkedBodies.contains id = true
  files : s.checkedFiles ⊆ s'.checkedFiles

section Checked

variable {s t u : State}

theorem State.StaysChecked.refl (s : State) : s.StaysChecked s := ⟨fun _ => id, List.Subset.refl _⟩

theorem State.StaysChecked.after {α : Type} {m : Check α} {a : α} (keeps : Keeps s.StaysChecked m)
    (run : m.run s = .ok (a, t)) : s.StaysChecked t := keeps.keeps s a t (.refl s) run

theorem State.StaysChecked.same (before : s.StaysChecked t) (bodies : u.checkedBodies = t.checkedBodies)
    (files : u.checkedFiles = t.checkedFiles) : s.StaysChecked u where
  bodies id checked := bodies ▸ before.bodies id checked
  files := files ▸ before.files

theorem checkedReports {s : State} (mark : Source.Mark) (m : Message) (notes : List String) :
    Keeps s.StaysChecked (report mark m notes) := .modified fun _ before => before.same rfl rfl

instance checkedLasting (s : State) : Lasting anyName Tags.any s.StaysChecked where
  symbols _ _ x _ := x.labelledAny
  signatures _ _ g _ := g.node.labelledAny
  deferred _ _ f _ := f.labelledAny
  same t u before same := by
    simp only [State.record, Prod.mk.injEq] at same
    obtain ⟨-, -, -, -, -, -, -, -, -, -, -, bodies, files⟩ := same
    exact before.same bodies files
  report := checkedReports
  note _ _ _ _ _ := .modified fun _ before => before.same rfl rfl
  newSymbol _ _ := .modifiedGet fun _ before => before.same rfl rfl
  refine _ _ _ := .modified fun _ before => before.same rfl rfl
  redeclare _ _ _ _ := .modified fun _ before => before.same rfl rfl
  newSignature _ _ := .modifiedGet fun _ before => before.same rfl rfl
  result _ _ := .modified fun _ before => before.same rfl rfl
  access _ _ _ before _ := before.same rfl rfl
  use _ _ _ _ _ _ _ _ before _ _ _ run :=
    useKeeps (fun mark m => checkedReports mark m []) (before.same rfl rfl) run
  checkedBody t id before := ⟨fun other checked => by simp [before.bodies other checked], before.files⟩
  checkedFile t name before := ⟨before.bodies, fun _ member => List.mem_cons_of_mem _ (before.files member)⟩
  defer _ _ before _ := before.same rfl rfl
  next _ _ _ before _ := before.same rfl rfl

end Checked

/-! What is looked at once -/

section Once

variable {s t u : State}

/-- A body is marked before it is looked at. -/
theorem bodyMarked {n : Nat} {f : FunctionNode} (looked : ((Queries.ofDepth n).checkBody f).run s = .ok ((), t)) :
    t.checkedBodies.contains f.mark.id = true := by
  unfold Queries.checkBody at looked
  rw [runGet] at looked
  split at looked
  next marked =>
    cases looked
    exact marked
  next =>
    obtain ⟨⟨⟩, v, marked, looked⟩ := runBind looked
    cases marked
    refine (State.StaysChecked.after ?_ looked).bodies _ Std.HashMap.contains_insert_self
    refine .bind (Queries.checkContentKeeps f.labelledAny) fun _ => .bind inferInstance fun s => ?_
    split <;> infer_instance

theorem checkFileAgain {f : SourceFile} (marked : f.name ∈ s.checkedFiles) : (checkFile f).run s = .ok ((), s) := by
  unfold checkFile
  rw [runGet, if_pos (List.contains_iff_mem.mpr marked)]
  rfl

/-- The diagnostics of a file are those that are there when it has been checked, in order. -/
theorem diagnosticsRun {f : SourceFile} (checked : (checkFile f).run s = .ok ((), t)) :
    (diagnosticsOf f).run s = .ok (Diagnostic.sort (t.reported f.name), t) := by
  unfold diagnosticsOf
  rw [runThen checked]
  rfl

theorem sortSame (d : Diagnostic) : Diagnostic.sort [d, d] = [d, d] := by
  have same : d.notAfter d = true := by simp [Diagnostic.notAfter]
  exact List.mergeSort_of_pairwise (by simp [same])

/-- A file is marked before it is looked at. -/
theorem fileMarked {f : SourceFile} (looked : (checkFile f).run s = .ok ((), t)) : f.name ∈ t.checkedFiles := by
  unfold checkFile at looked
  rw [runGet] at looked
  split at looked
  next marked =>
    cases looked
    exact List.contains_iff_mem.mp marked
  next =>
    obtain ⟨⟨⟩, v, marked, looked⟩ := runBind looked
    cases marked
    refine (State.StaysChecked.after ?_ looked).files List.mem_cons_self
    exact .bind (Queries.checkStatementsKeeps _ (Source.labelledAnyStmts _)) fun _ => Queries.checkDeferredKeeps _

/-- All files that were asked about are marked. -/
theorem filesMarked {files : List SourceFile} {found : List (List Diagnostic)}
    (asked : (files.mapM diagnosticsOf).run s = .ok (found, t)) : ∀ f ∈ files, f.name ∈ t.checkedFiles := by
  induction files generalizing s found with
  | nil => nofun
  | cons f rest ih =>
    rw [List.mapM_cons] at asked
    obtain ⟨own, u, first, asked⟩ := runBind asked
    obtain ⟨others, v, later, asked⟩ := runBind asked
    cases asked
    obtain ⟨⟨⟩, w, looked, first⟩ := runBind first
    cases first
    have stays : State.StaysChecked _ t := State.StaysChecked.after (.mapM fun g _ =>
      .bind (checkFileKeeps (Source.labelledAnyStmts _)) inferInstance) later
    exact List.forall_mem_cons.mpr ⟨stays.files (fileMarked looked), ih later⟩

/-- The same expression, body or file, to be looked at again. An expression may be expected to be of another type. -/
inductive Question.Repeats : Question → Question → Prop
  | exprType (e : Expr) (expected expected' : Option TypeId) : Repeats (.exprType e expected) (.exprType e expected')
  | body (f : FunctionNode) : Repeats (.body f) (.body f)
  | file (f : SourceFile) : Repeats (.file f) (.file f)

/-- What has been looked at to its end stays as it is when it is looked at again, whatever has been asked in between: at
no level anything becomes known or is reported. -/
theorem lookedAtOnce {question again : Question} (repeats : question.Repeats again) {n : Nat} {s t u : State}
    (looked : question.after (.ofDepth n) s = some t) (later : t.Leads u) (m : Nat) :
    again.after (.ofDepth (m + 1)) u = some u := by
  have checked : t.StaysChecked u := later.keeps (.refl t)
  cases repeats with
  | exprType e expected expected' =>
    obtain ⟨type, looked⟩ := stateAfterIff.mp looked
    have known : t.Continues u := later.keeps (.refl t)
    have reads : Reads u (1 ≤ m + 1) ((Queries.ofDepth (m + 1)).typeOfExpr e expected') type :=
      readsExprType (known.noted _ _ (typeNoted looked))
    exact stateAfterIff.mpr ⟨type, reads.known (Nat.le_add_left 1 m)⟩
  | body f =>
    obtain ⟨_, looked⟩ := stateAfterIff.mp looked
    have marked := checked.bodies _ (bodyMarked looked)
    refine stateAfterIff.mpr ⟨(), ?_⟩
    unfold Queries.checkBody
    rw [runGet, if_pos marked]
    rfl
  | file f =>
    obtain ⟨_, looked⟩ := stateAfterIff.mp looked
    have marked := checked.files (fileMarked looked)
    exact stateAfterIff.mpr ⟨(), checkFileAgain marked⟩

/-- What is said about a node at the place of all marks here. -/
def saidAt (file : String) (m : Message) : Diagnostic :=
  { message := m.text, code := some m.code, phase := some "typecheck", span := .ofExtent (some file) (markAt 0).extent }

/-- A name that nothing declares. -/
def unknownName : Expr := .ident (markAt 1) "x"

def unknownFile : SourceFile := ⟨"/f.ts", [.expr (markAt 0) unknownName], []⟩

/-- `function f() { return f(1) }` -/
def wrongCall : SourceFile := returning (.call (markAt 5) (.ident (markAt 4) "f") [.number (markAt 6) (.int 1) "1"])

/-- What is reported for both files. -/
theorem filesReported :
    (((start [unknownFile]).toOption.bind fun s => ((Question.exprType unknownName none).after answers s).bind fun t =>
      ((Question.file unknownFile).after answers t).map fun u => (t.reported "/f.ts", u.reported "/f.ts")) =
      some ([saidAt "/f.ts" (.cannotFindName "x")], [saidAt "/f.ts" (.cannotFindName "x")])) ∧
    ((start [wrongCall]).toOption.bind fun s =>
      ((checkFile wrongCall).run s).toOption.map fun result => result.2.reported "/f.ts") =
      some [saidAt "/f.ts" (.expectedArguments "0" 1), saidAt "/f.ts" (.expectedArguments "0" 1)] := by
  obtain ⟨q, levels⟩ := answersStep
  obtain ⟨fuel, limit⟩ := bodiesWait
  unfold Question.after
  simp only [checkFile, levels, limit]
  constructor
  · cbv
  · cbv

/-- The name is reported when it is first looked at, and not when its file is checked or when it is looked at again. -/
theorem unknownNameOnce : ∃ s t u, start [unknownFile] = .ok s ∧
    (Question.exprType unknownName none).after answers s = some t ∧
    t.reported "/f.ts" = [saidAt "/f.ts" (.cannotFindName "x")] ∧
    (Question.file unknownFile).after answers t = some u ∧ u.reported "/f.ts" = [saidAt "/f.ts" (.cannotFindName "x")] ∧
    (Question.exprType unknownName (some stringType)).after answers u = some u := by
  obtain ⟨s, started, found⟩ := Option.bind_eq_some_iff.mp filesReported.1
  obtain ⟨t, looked, found⟩ := Option.bind_eq_some_iff.mp found
  obtain ⟨u, checked, found⟩ := Option.map_eq_some_iff.mp found
  have leads : t.Leads u := .next depthLimit .none trivial checked
  exact ⟨s, t, u, okOfSome started, looked, congrArg Prod.fst found, checked, congrArg Prod.snd found,
    lookedAtOnce (.exprType unknownName none (some stringType)) looked leads 999⟩

/-- The call is looked at again for the result of the function while it is looked at, so it is reported twice. -/
theorem callReportedTwice : ∃ s t d, start [wrongCall] = .ok s ∧ (diagnosticsOf wrongCall).run s = .ok ([d, d], t) := by
  obtain ⟨s, started, found⟩ := Option.bind_eq_some_iff.mp filesReported.2
  obtain ⟨⟨⟨⟩, t⟩, checked, twice⟩ := Option.map_eq_some_iff.mp found
  have collected := diagnosticsRun (okOfSome checked)
  rw [show t.reported wrongCall.name = _ from twice, sortSame] at collected
  exact ⟨s, t, _, okOfSome started, collected⟩

end Once

end Fragment.Typing
