import Fragment.Proofs.BindingKept
import Fragment.Proofs.LabelledTrees
import Fragment.Proofs.Reshape
import Fragment.Request.Description

/-! Files are labelled as they are read.
The numbers of one file begin where those of the file before it end. So there is one way to tell accesses
from names in all the files of a compilation, and the checker of the compilation starts with it. -/
namespace Fragment

open Source (SourceFile Stmt Tree Token IsWord LabelledStmts)

/-- Parsing takes numbers from `start` on, and told apart the right way they label what is parsed. -/
theorem Source.parseLabels {start next : Nat} {text path : String} {file : SourceFile}
    (parsed : parseFrom start text path = .ok (file, next)) :
    start ≤ next ∧ ∃ own : Nat → Prop, ∀ A : Nat → Prop, (∀ i, start ≤ i → i < next → (A i ↔ own i)) →
      LabelledStmts IsWord A file.statements := by
  unfold parseFrom at parsed
  obtain ⟨raw, lexed, parsed⟩ := okBind parsed
  obtain ⟨trees, recognized, parsed⟩ := okBind parsed
  obtain ⟨made, built, parsed⟩ := okBind parsed
  cases parsed
  have spelled := treesSpelled (okMapError lexed) (okMapError recognized)
  have good : ∀ t ∈ trees.flatMap Tree.nodes, t.Over Token.Spelled := by
    intro t member
    obtain ⟨tree, among, inside⟩ := List.mem_flatMap.mp member
    exact (spelled tree among).nodes t inside
  have labels := Labels.each (P := fun A (s : Stmt) => s.Labelled IsWord A) fun t member =>
    (treesLabelled (buildDepth (layOut raw))).stmt t (good t member)
  obtain ⟨after, own, holds⟩ := labels start made.1 made.2 (okMapError built)
  exact ⟨after, own, fun A agrees => (Source.labelledStmtsIff _).mpr (holds A agrees)⟩

namespace Compilation

variable {c d : Compilation}

/-- All files of a compilation are labelled by numbers that are told apart below the next one. -/
def Labelled (c : Compilation) : Prop :=
  ∃ own : Nat → Prop, ∀ A : Nat → Prop, (∀ i < c.nextNode, A i ↔ own i) →
    ∀ entry ∈ c.sources, LabelledStmts IsWord A entry.2.statements

theorem memPut {α : Type} {sources : List (String × α)} {path : String} {a : α} :
    ∀ entry ∈ put sources path a, entry = (path, a) ∨ entry ∈ sources := by
  induction sources with
  | nil =>
    unfold put
    simp
  | cons first rest ih =>
    intro entry member
    unfold put at member
    split at member
    case isTrue same =>
      rcases List.mem_cons.mp member with rfl | old
      · exact .inl (by rw [same])
      · exact .inr (List.mem_cons_of_mem first old)
    case isFalse =>
      rcases List.mem_cons.mp member with rfl | later
      · exact .inr List.mem_cons_self
      · exact (ih entry later).imp_right (List.mem_cons_of_mem first)

theorem readLabelled {file : Option SourceFile} {path : String} (labelled : c.Labelled) (read : c.read path = .ok (file, d)) :
    d.Labelled := by
  unfold Compilation.read at read
  obtain ⟨text, -, read⟩ := okBind read
  dsimp only at read
  split at read
  next file next parsed =>
    cases read
    obtain ⟨own, before⟩ := labelled
    obtain ⟨after, fresh, now⟩ := Source.parseLabels parsed
    refine ⟨fun i => if i < c.nextNode then own i else fresh i, fun A agrees entry member => ?_⟩
    rcases memPut entry member with rfl | old
    · exact now A fun i low high => (agrees i high).trans (by simp [Nat.not_lt.mpr low])
    · exact before A (fun i low => (agrees i (Nat.lt_of_lt_of_le low after)).trans (by simp [low])) entry old
  next =>
    cases read
    exact labelled
  next => cases read

section Load

variable {I : Compilation → Prop} (reads : ∀ c path file d, I c → c.read path = .ok (file, d) → I d)

include reads

theorem readLibrariesKeeps (problems : ∀ c libraryProblems, I c → I { c with libraryProblems }) {fuel : Nat}
    {queue : List String} (before : I c) (read : readLibraries fuel queue c = .ok d) : I d := by
  induction fuel generalizing queue c with
  | zero =>
    cases read
    exact before
  | succ fuel ih =>
    cases queue with
    | nil =>
      cases read
      exact before
    | cons name queue =>
      unfold readLibraries at read
      dsimp only at read
      split at read
      case isTrue => exact ih before read
      case isFalse =>
        obtain ⟨⟨file, next⟩, first, read⟩ := okBind read
        exact ih (problems next _ (reads c _ file next before first)) read

theorem readRootsKeeps {roots : List String} (before : I c) (read : readRoots roots c = .ok d) : I d := by
  induction roots generalizing c with
  | nil =>
    cases read
    exact before
  | cons root rest ih =>
    obtain ⟨⟨file, next⟩, first, read⟩ := okBind read
    exact ih (reads c root file next before first) read

/-- What holds before any file is read, and is kept when one is read, holds of a compilation. -/
theorem loadInduction (problems : ∀ c libraryProblems, I c → I { c with libraryProblems }) {roots : List String}
    {options : Options} {files : Files} (none : I { options, roots, files }) (loaded : load roots options files = .ok c) :
    I c := by
  unfold load at loaded
  split at loaded
  case isTrue => cases loaded
  case isFalse =>
    obtain ⟨libraries, first, rest⟩ := okBind loaded
    exact readRootsKeeps reads (readLibrariesKeeps reads problems none first) rest

end Load

theorem loadLabelled {roots : List String} {options : Options} {files : Files} (loaded : load roots options files = .ok c) :
    c.Labelled :=
  loadInduction (fun _ _ _ _ => readLabelled) (fun _ _ labelled => labelled) ⟨fun _ => False, fun _ _ => nofun⟩ loaded

/-! The checker -/

open Typing (State Keeps SymbolId Check)

variable {A : Nat → Prop} {K : SymbolId → Prop}

theorem sourceLabelled (labelled : ∀ entry ∈ c.sources, LabelledStmts IsWord A entry.2.statements) {path : String}
    {file : SourceFile} (found : c.source? path = some file) : LabelledStmts IsWord A file.statements := by
  obtain ⟨_, _, sources, _⟩ := List.lookup_eq_some_iff.mp found
  exact labelled (path, file) (by simp [sources])

theorem sourceFilesLabelled (labelled : ∀ entry ∈ c.sources, LabelledStmts IsWord A entry.2.statements) :
    ∀ f ∈ c.sourceFiles, LabelledStmts IsWord A f.statements := by
  intro f member
  obtain ⟨path, -, found⟩ := List.mem_filterMap.mp member
  exact sourceLabelled labelled found

theorem undefinedWord : IsWord "undefined" := by decide

theorem checkerLabelled (labelled : ∀ entry ∈ c.sources, LabelledStmts IsWord A entry.2.statements) {s : State}
    (started : c.checker = .ok s) : s.Labelled IsWord A fun _ => False :=
  Typing.startLabelled undefinedWord (sourceFilesLabelled labelled) (okMapError started)

theorem diagnosticsKeeps {I : State → Prop} [Typing.Lasting IsWord A I] (labelled : ∀ entry ∈ c.sources, LabelledStmts IsWord A entry.2.statements) :
    Keeps I c.diagnostics := by
  have semantic : Keeps I c.semanticDiagnostics :=
    .bind (.mapM fun f member => .bind (Typing.checkFileKeeps (sourceFilesLabelled labelled f member)) inferInstance)
      inferInstance
  unfold diagnostics Typing.Check.globalDiagnostics
  dsimp only
  split <;> infer_instance

end Compilation

/-! The description -/

namespace Description

open Typing (State Keeps SymbolId SignatureId TypeId Check)

variable {I : State → Prop} {α β : Type}

theorem inspectBind {m : Inspect α} {f : α → Inspect β} (first : Keeps I m.run)
    (rest : ∀ a, Keeps I (f a).run) : Keeps I (m >>= f).run := by
  rw [ExceptT.run_bind]
  refine first.bind fun r => ?_
  split
  · exact rest _
  · infer_instance

theorem inspectAsk {m : Check α} {f : α → Inspect β} [asked : Keeps I m] (rest : ∀ a, Keeps I (f a).run) :
    Keeps I ((liftM m : Inspect α) >>= f).run :=
  inspectBind (by rw [ExceptT.run_liftM]; infer_instance) rest

theorem inspectEach {f : α → Inspect β} (each : ∀ a, Keeps I (f a).run) (xs : List α) :
    Keeps I (xs.mapM f).run := by
  induction xs with
  | nil => exact Typing.pureKeeps _
  | cons x xs ih =>
    rw [List.mapM_cons]
    exact inspectBind (each x) fun _ => inspectBind ih fun _ => Typing.pureKeeps _

variable {A : Nat → Prop} [lasting : Typing.Lasting IsWord A I]

include lasting

theorem refuseKeeps (e : String → CompileError) (t : TypeId) :
    Keeps I (do throw (e (← Typing.answers.textOf t)) : Inspect α).run :=
  inspectAsk fun _ => Typing.pureKeeps _

theorem signatureOfKeeps {e : Source.Expr} (labelled : e.Labelled IsWord A) :
    Keeps I (signatureOf e).run := by
  have := Typing.Level.typeOfExpr (I := I) (q := Typing.answers) e labelled
  unfold signatureOf Check.typeOfExpr
  refine inspectAsk fun t => inspectAsk fun signatures => ?_
  split
  · exact Typing.pureKeeps _
  · exact refuseKeeps _ t

theorem parameterOfKeeps (x : SymbolId) : Keeps I (parameterOf x).run := by
  refine inspectAsk fun t => inspectAsk fun symbol => inspectAsk fun flags => ?_
  split
  · exact Typing.pureKeeps _
  · exact refuseKeeps _ t

theorem fieldOfKeeps (x : SymbolId) : Keeps I (fieldOf x).run := by
  refine inspectAsk fun t => inspectAsk fun symbol => inspectAsk fun flags => ?_
  split
  · exact Typing.pureKeeps _
  · exact refuseKeeps _ t

instance plainObjectKeeps (t : TypeId) : Keeps I (isPlainObject t) := by
  unfold isPlainObject
  refine .bind inferInstance fun info => ?_
  split <;> infer_instance

theorem resultOfKeeps (g : SignatureId) : Keeps I (resultOf g).run := by
  refine inspectAsk fun t => inspectAsk fun promised => inspectAsk fun isPlain => ?_
  have fields : Keeps I
      (do (← Typing.answers.properties (promised.getD t)).mapM fieldOf : Inspect _).run :=
    inspectAsk fun properties => inspectEach fieldOfKeeps properties
  split
  · exact inspectAsk fun text => inspectBind (Typing.pureKeeps _) fun _ => fields
  · exact fields

theorem ofExprKeeps {e : Source.Expr} (labelled : e.Labelled IsWord A) :
    Keeps I (ofExpr e).run :=
  inspectBind (signatureOfKeeps labelled) fun _ => inspectAsk fun _ => inspectBind (inspectEach parameterOfKeeps _) fun _ =>
    inspectBind (resultOfKeeps _) fun _ => Typing.pureKeeps _

end Description

end Fragment
