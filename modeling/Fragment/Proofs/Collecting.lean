import Fragment.Proofs.Asking
import Fragment.Proofs.Unmoved
import Mathlib

/-! Collecting the diagnostics of files.
What has been collected stays. Questions about what has been worked out add nothing to it; a question that works
something out may report, also after all files have been checked. -/
namespace Fragment.Typing

open Source (Expr Site SourceFile TypeNode)
open Check

section WorkedOut

variable {st s t : State}

/-- What making code asks about a place has been worked out. -/
def State.WorkedOutAt (st : State) : Site → Prop
  | .expr e => (st.nodeTypes[e.mark.id]?).isSome = true
  | .enum m => ∀ x, st.symbolOf[m.id]? = some x → (st.symbol x).declaredType.isSome = true
  | _ => True

/-- What a question looks at has been worked out. -/
def State.WorkedOut (st : State) : Question → Prop
  | .exprType e _ => (st.nodeTypes[e.mark.id]?).isSome = true
  | .symbolType x => (st.symbol x).type.isSome = true
  | .declared x => (st.symbol x).declaredType.isSome = true
  | .typeNode node _ => (st.typeNodeTypes[node.mark.id]?).isSome = true
  | .members _ => st.Resolved
  | .property t name => st.Resolved ∧
      ∀ types, (st.typeInfo t).form = .union types → (st.unionProperties[(t, name)]?).isSome = true
  | .properties t | .signatures t => st.Resolved ∧ ∀ types, (st.typeInfo t).form ≠ .union types
  | .result g => ∃ sig, st.signature? g = some sig ∧ sig.result.isSome = true
  | .relation _ explain _ _ => st.Resolved ∧ explain = false
  | .text _ _ => st.Spelled
  | .apparent t => st.Resolved ∧ ∀ bound, (st.typeInfo t).form ≠ .typeParameter bound
  | .body f => st.checkedBodies.contains f.mark.id = true
  | .file f => f.name ∈ st.checkedFiles
  | .code f _ => f.name ∈ st.checkedFiles ∧ st.PromiseKnown ∧ ∀ site ∈ f.sites, st.WorkedOutAt site
  | .instantiate .. | .awaited _ | .statements _ | .bodies _ => False

/-- What a question about a type node finds is noted. -/
theorem readsTypeNode {node : TypeNode} {scope : TypeScope} {n : Nat} {t : TypeId}
    (known : st.typeNodeTypes[node.mark.id]? = some t) :
    Reads st (1 ≤ n) ((Queries.ofDepth n).typeOfNode node scope) t := by
  refine readsLevel (m := fun q => q.typeOfNode node scope) (fun _ => rfl) fun n => Reads.get fun kept opened => ?_
  have same : (st.asking kept opened).typeNodeTypes[node.mark.id]? = some t := known
  rw [same]
  exact Reads.pure t

theorem readsUnionProperty {t : TypeId} {name : String} {types : List TypeId} {n : Nat} {found : Option SymbolId}
    (form : (st.typeInfo t).form = .union types) (known : st.unionProperties[(t, name)]? = some found) :
    Reads st (1 ≤ n) ((Queries.ofDepth n).property t name) found := by
  refine readsLevel (m := fun q => q.property t name) (fun _ => rfl) fun n => Reads.bind (readsInfo _ t) ?_
  rw [form]
  refine Reads.get fun kept opened => ?_
  have same : (st.asking kept opened).unionProperties[(t, name)]? = some found := known
  rw [same]
  exact Reads.pure found

theorem State.Spelled.asking (spelled : st.Spelled) (kept : KeptAnswers) (opened : List RelationKey) :
    (st.asking kept opened).Spelled where
  members := spelled.members
  properties := spelled.properties
  signatures := spelled.signatures
  interfaces := spelled.interfaces
  parameters := spelled.parameters
  empty := spelled.empty
  present := spelled.present
  methods := spelled.methods
  numbers := spelled.numbers

theorem textUnmoved (spelled : st.Spelled) (n : Nat) (t : TypeId) (depth : Nat) :
    Keeps st.Unmoved ((Queries.ofDepth n).write t depth) where
  keeps s a s' unmoved run := by
    obtain ⟨kept, opened, rfl⟩ := unmoved
    rcases levelsEnd (spelled.asking kept opened) n t depth with ⟨-, text, ended⟩ | ⟨-, fault, failed⟩
    · cases ended.symm.trans run
      exact ⟨kept, opened, rfl⟩
    · cases failed.symm.trans run

theorem fileUnmoved {f : SourceFile} (checked : f.name ∈ st.checkedFiles) : Keeps st.Unmoved (checkFile f) where
  keeps s a s' unmoved run := by
    obtain ⟨kept, opened, rfl⟩ := unmoved
    have again := checkFileAgain (s := st.asking kept opened) checked
    cases again.symm.trans run
    exact ⟨kept, opened, rfl⟩

theorem bodyUnmoved {f : FunctionNode} {n : Nat} (checked : st.checkedBodies.contains f.mark.id = true) :
    Keeps st.Unmoved ((Queries.ofDepth n).checkBody f) := by
  refine getUnmoved fun kept opened => ?_
  have same : (st.asking kept opened).checkedBodies.contains f.mark.id = true := checked
  rw [if_pos same]
  exact pureKeeps _

theorem siteUnmoved {site : Site} (known : st.WorkedOutAt site) : Emit.SiteKept st.Unmoved site := by
  cases site with
  | expr e =>
    obtain ⟨type, noted⟩ := Option.isSome_iff_exists.mp known
    exact (readsExprType (n := depthLimit) noted).unmoved
  | enum m =>
    intro s x t s' unmoved declared run
    obtain ⟨kept, opened, rfl⟩ := unmoved
    exact (readsDeclared (n := depthLimit) (known x declared)).unmoved.keeps _ _ _ ⟨kept, opened, rfl⟩ run
  | _ => trivial

/-- A question about what has been worked out changes nothing but what is kept about relations. -/
theorem questionUnmoved (n : Nat) {question : Question} (known : st.WorkedOut question) (unmoved : st.Unmoved s)
    (answered : question.after (.ofDepth n) s = some t) : st.Unmoved t := by
  cases question with
  | exprType e expected =>
    obtain ⟨type, noted⟩ := Option.isSome_iff_exists.mp known
    exact (readsExprType noted).unmoved.after unmoved answered
  | symbolType x => exact (readsValueType known).unmoved.after unmoved answered
  | declared x => exact (readsDeclared known).unmoved.after unmoved answered
  | typeNode node scope =>
    obtain ⟨type, noted⟩ := Option.isSome_iff_exists.mp known
    exact (readsTypeNode noted).unmoved.after unmoved answered
  | members t => exact (readsMembers known t).unmoved.after unmoved answered
  | property t name =>
    obtain ⟨resolved, parts⟩ := known
    by_cases form : ∃ types, (st.typeInfo t).form = .union types
    · obtain ⟨types, form⟩ := form
      obtain ⟨found, noted⟩ := Option.isSome_iff_exists.mp (parts types form)
      exact (readsUnionProperty form noted).unmoved.after unmoved answered
    · exact (readsProperty resolved name (not_exists.mp form)).unmoved.after unmoved answered
  | properties t =>
    have looks : Looks st False (Queries.ofDepth n) := looksDepth known.1 False.elim
    exact (readsProperties looks known.2).unmoved.after unmoved answered
  | signatures t =>
    have looks : Looks st False (Queries.ofDepth n) := looksDepth known.1 False.elim
    exact (readsSignatures looks known.2).unmoved.after unmoved answered
  | result g =>
    obtain ⟨sig, found, result⟩ := known
    exact (readsResult found result).unmoved.after unmoved answered
  | relation r explain source target =>
    obtain ⟨resolved, rfl⟩ := known
    exact (relateUnmoved resolved n r source target).after unmoved answered
  | text t depth => exact (textUnmoved known n t depth).after unmoved answered
  | apparent t => exact (readsApparent known.1 known.2).unmoved.after unmoved answered
  | body f => exact (bodyUnmoved known).after unmoved answered
  | file f => exact (fileUnmoved known).after unmoved answered
  | code f kind =>
    obtain ⟨checked, promise, sites⟩ := known
    unfold Question.after at answered
    dsimp only at answered
    split at answered
    next made =>
      cases answered
      have promised : ∀ t, Keeps st.Unmoved (answers.promised t) := fun t => by
        obtain ⟨_, reads⟩ := readsPromised (n := depthLimit) promise t
        exact reads.unmoved
      exact Emit.emitFileKept (fileUnmoved checked) (fun site member => siteUnmoved (sites site member)) unmoved made
    next => cases answered
  | instantiate | awaited | statements | bodies => exact known.elim

theorem State.Follows.unmoved (follows : st.Follows st.WorkedOut t) : st.Unmoved t := by
  induction follows with
  | none => exact .refl st
  | next n _ known answered ih => exact questionUnmoved n known ih answered

end WorkedOut

theorem collectedRun {f : SourceFile} {s t : State} {found : List Diagnostic}
    (collected : (diagnosticsOf f).run s = .ok (found, t)) :
    (checkFile f).run s = .ok ((), t) ∧ found = Diagnostic.sort (t.reported f.name) := by
  obtain ⟨⟨⟩, u, checked, _⟩ := runBind collected
  cases (diagnosticsRun checked).symm.trans collected
  exact ⟨checked, rfl⟩

/-- The diagnostics that have been collected for a file are reported again after any questions. If only what has been
worked out is asked about, collecting gives the same list again, and changes nothing. -/
theorem collectedStays {f : SourceFile} {s₀ s : State} {found : List Diagnostic}
    (collected : (diagnosticsOf f).run s₀ = .ok (found, s)) :
    (∀ t, s.Leads t → ∃ more, (diagnosticsOf f).run t = .ok (more, t) ∧ found.Subperm more) ∧
    ∀ t, s.Follows s.WorkedOut t → (diagnosticsOf f).run t = .ok (found, t) := by
  obtain ⟨checked, rfl⟩ := collectedRun collected
  have marked := fileMarked checked
  refine ⟨fun t leads => ?_, fun t follows => ?_⟩
  · have stays : s.StaysChecked t := leads.keeps (.refl s)
    have grows : s.Continues t := leads.keeps (.refl s)
    refine ⟨_, diagnosticsRun (checkFileAgain (stays.files marked)), ?_⟩
    have before := List.mergeSort_perm (s.reported f.name) Diagnostic.notAfter
    have after := List.mergeSort_perm (t.reported f.name) Diagnostic.notAfter
    exact (grows.reported f.name).sublist.subperm.trans after.symm.subperm |> before.subperm.trans
  · obtain ⟨kept, opened, rfl⟩ := follows.unmoved
    have again : (checkFile f).run (s.asking kept opened) = .ok ((), s.asking kept opened) := checkFileAgain marked
    exact diagnosticsRun again

/-- `function f() { return { f: f } }` -/
def ownObject : SourceFile := returning (.object (markAt 5) [ownProperty])

/-- `const f = (p: { a: number; a: string }) => 1` -/
def twiceDeclared : SourceFile :=
  let member (n : Nat) (type : String) : Source.TypeMember :=
    .property (markAt n) "a" (.ref (markAt (n + 1)) type []) false
  let type : TypeNode := .members (markAt 5) [member 6 "number", member 8 "string"]
  let params : List Source.Param := [.mk (markAt 4) "p" (some type) false false]
  let function : Expr := .arrow (markAt 3) params (.expr (.number (markAt 10) (.int 1) "1")) none false
  ⟨"/f.ts", [.var (markAt 1) .const [.mk (markAt 2) "f" none (some function)] false], []⟩

/-- What is known of both files when they have been checked, and after a question. -/
theorem filesAsked :
    (((start [ownObject]).toOption.bind fun s => ((checkFile ownObject).run s).toOption.bind fun checked =>
      ((Question.relation .assignable false 12 14).after answers checked.2).map fun u =>
        (checked.2.reported "/f.ts", checked.2.nodeTypes[5]?, checked.2.relations[(Relation.assignable, 12, 14)]?,
          u.relations[(Relation.assignable, 12, 14)]?)) = some ([], some 13, none, some false)) ∧
    ((start [twiceDeclared]).toOption.bind fun s => ((checkFile twiceDeclared).run s).toOption.bind fun checked =>
      ((Question.text 12 0).after answers checked.2).map fun u =>
        (checked.2.reported "/f.ts", checked.2.typeNodeTypes[5]?, u.reported "/f.ts")) =
        some ([], some 12, [saidAt "/f.ts" (.duplicateIdentifier "a")]) := by
  obtain ⟨q, levels⟩ := answersStep
  obtain ⟨fuel, limit⟩ := bodiesWait
  unfold Question.after
  simp only [checkFile, levels, limit]
  constructor
  · cbv
  · cbv

/-- The types of the file have been worked out when it has been checked, so it stays without diagnostics when the type of
the object is asked for again, and whether the function can be assigned to it. -/
theorem ownObjectCollected : ∃ s t u, start [ownObject] = .ok s ∧ (diagnosticsOf ownObject).run s = .ok ([], t) ∧
    (Question.exprType (.object (markAt 5) [ownProperty]) none).after answers t = some t ∧
    (Question.relation .assignable false 12 14).after answers t = some u ∧
    t.relations[(Relation.assignable, 12, 14)]? = none ∧ u.relations[(Relation.assignable, 12, 14)]? = some false ∧
    (diagnosticsOf ownObject).run u = .ok ([], u) := by
  obtain ⟨s, started, found⟩ := Option.bind_eq_some_iff.mp filesAsked.1
  obtain ⟨⟨⟨⟩, t⟩, checked, found⟩ := Option.bind_eq_some_iff.mp found
  obtain ⟨u, related, found⟩ := Option.map_eq_some_iff.mp found
  simp only [Prod.mk.injEq] at found
  obtain ⟨silent, noted, fresh, refused⟩ := found
  have collected := diagnosticsRun (okOfSome checked)
  rw [show t.reported ownObject.name = [] from silent, Diagnostic.sort, List.mergeSort_nil] at collected
  obtain ⟨s', alone, spelled, -⟩ := ownPropertyTables
  have same : checkAlone ownObject = .ok t := by
    rw [checkAlone, okOfSome started]
    change ((checkFile ownObject).run s >>= fun result => pure result.2) = _
    rw [okOfSome checked]
    rfl
  cases alone.symm.trans same
  have typed : (Question.exprType (.object (markAt 5) [ownProperty]) none).after answers t = some t :=
    stateAfterIff.mpr ⟨13, (readsExprType (n := depthLimit) noted).known (by decide)⟩
  have known : t.WorkedOut (.exprType (.object (markAt 5) [ownProperty]) none) := Option.isSome_of_eq_some noted
  have first : t.Follows t.WorkedOut t := .next depthLimit .none known typed
  have resolved : t.WorkedOut (.relation .assignable false 12 14) := ⟨spelled.toResolved, rfl⟩
  have second : t.Follows t.WorkedOut u := .next depthLimit first resolved related
  exact ⟨s, t, u, okOfSome started, collected, typed, related, fresh, refused, (collectedStays collected).2 u second⟩

/-- The members of the type of `p` are first looked at when the type is written, so the file has no diagnostics before,
and one afterwards. -/
theorem duplicateReportedLate : ∃ s t u d, start [twiceDeclared] = .ok s ∧
    (diagnosticsOf twiceDeclared).run s = .ok ([], t) ∧ t.typeNodeTypes[5]? = some 12 ∧
    (Question.text 12 0).after answers t = some u ∧ (diagnosticsOf twiceDeclared).run u = .ok ([d], u) := by
  obtain ⟨s, started, found⟩ := Option.bind_eq_some_iff.mp filesAsked.2
  obtain ⟨⟨⟨⟩, t⟩, checked, found⟩ := Option.bind_eq_some_iff.mp found
  obtain ⟨u, written, found⟩ := Option.map_eq_some_iff.mp found
  simp only [Prod.mk.injEq] at found
  obtain ⟨silent, noted, said⟩ := found
  have before := diagnosticsRun (okOfSome checked)
  rw [show t.reported twiceDeclared.name = [] from silent, Diagnostic.sort, List.mergeSort_nil] at before
  have leads : t.Leads u := .next depthLimit .none trivial written
  have stays : t.StaysChecked u := leads.keeps (.refl t)
  have after := diagnosticsRun (checkFileAgain (stays.files (fileMarked (okOfSome checked))))
  rw [show u.reported twiceDeclared.name = _ from said, Diagnostic.sort, List.mergeSort_singleton] at after
  exact ⟨s, t, u, _, okOfSome started, before, noted, written, after⟩

end Fragment.Typing
