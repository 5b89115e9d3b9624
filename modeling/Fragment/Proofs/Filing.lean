import Fragment.Proofs.Collecting
import Fragment.Proofs.NodesNoted

/-! Where diagnostics are kept.
What is raised about a node of a program is kept with the diagnostics of a file of the program, and is among them
whenever they are collected from then on. It can be raised after the diagnostics of its file have been collected. -/
namespace Fragment.Typing

open Source (Expr Mark Node SourceFile Tags TypeNode anyName)
open Check

/-- An error about a node. -/
structure Report where
  mark : Mark
  message : Message
  notes : List String

/-- What is kept of an error. -/
def Report.diagnostic (r : Report) (s : State) : Diagnostic :=
  { s.diagnosticAt r.mark r.message with notes := r.notes }

namespace State

/-- Between the two states errors have been raised, and nothing has been noted about nodes. Each error is kept with the
file of its node. -/
structure Files (s t : State) (raised : List Report) : Prop where
  files : t.fileOf = s.fileOf
  scopes : t.scopeOf = s.scopeOf
  containers : t.containerOf = s.containerOf
  kept : ∀ file, t.reported file =
    s.reported file ++ (raised.filter (s.fileFor ·.mark = file)).map (·.diagnostic s)

variable {s t u : State} {raised more : List Report}

theorem Files.same (before : s.Files t raised) (files : u.fileOf = t.fileOf) (scopes : u.scopeOf = t.scopeOf)
    (containers : u.containerOf = t.containerOf) (diagnostics : u.diagnostics = t.diagnostics) : s.Files u raised where
  files := files.trans before.files
  scopes := scopes.trans before.scopes
  containers := containers.trans before.containers
  kept file := by
    rw [reported, diagnostics]
    exact before.kept file

theorem Files.refl (s : State) : s.Files s [] := ⟨rfl, rfl, rfl, by simp⟩

/-- One more error. -/
theorem Files.report (before : s.Files t raised) {mark : Mark} {m : Message} {notes : List String}
    (run : (report mark m notes).run t = .ok ((), u)) : s.Files u (raised ++ [⟨mark, m, notes⟩]) := by
  cases run
  refine ⟨before.files, before.scopes, before.containers, fun file => ?_⟩
  have kept := before.kept file
  simp only [reported, Std.HashMap.getD_insert, before.files, List.filter_append, List.map_append,
    List.filter_cons, List.filter_nil, fileFor] at kept ⊢
  by_cases own : (s.fileOf[mark.id]?).getD "" = file
  · simp [own, kept, Report.diagnostic, diagnosticAt]
  · simp [own, kept]

/-- Some errors have been raised. -/
def Filed (s t : State) : Prop := ∃ raised, s.Files t raised

theorem Filed.same (before : s.Filed t) (files : u.fileOf = t.fileOf) (scopes : u.scopeOf = t.scopeOf)
    (containers : u.containerOf = t.containerOf) (diagnostics : u.diagnostics = t.diagnostics) : s.Filed u :=
  before.imp fun _ before => before.same files scopes containers diagnostics

end State

theorem filedReports {s : State} (mark : Mark) (m : Message) (notes : List String) :
    Keeps s.Filed (report mark m notes) where
  keeps _ _ _ before run := by
    obtain ⟨raised, before⟩ := before
    exact ⟨_, before.report run⟩

instance filedLasting (s : State) : Lasting anyName Tags.any s.Filed where
  symbols _ _ x _ := x.labelledAny
  signatures _ _ g _ := g.node.labelledAny
  deferred _ _ f _ := f.labelledAny
  same t u before same := by
    simp only [State.record, Prod.mk.injEq] at same
    obtain ⟨-, -, -, -, -, -, files, scopes, containers, -, diagnostics, -⟩ := same
    exact before.same files scopes containers diagnostics
  report := filedReports
  note _ _ _ _ _ := .modified fun _ before => before.same rfl rfl rfl rfl
  newSymbol _ _ := .modifiedGet fun _ before => before.same rfl rfl rfl rfl
  refine _ _ _ := .modified fun _ before => before.same rfl rfl rfl rfl
  redeclare _ _ _ _ := .modified fun _ before => before.same rfl rfl rfl rfl
  newSignature _ _ := .modifiedGet fun _ before => before.same rfl rfl rfl rfl
  result _ _ := .modified fun _ before => before.same rfl rfl rfl rfl
  access _ _ _ before _ := before.same rfl rfl rfl rfl
  use _ _ _ _ _ _ _ _ before _ _ _ run :=
    useKeeps (fun mark m => filedReports mark m []) (before.same rfl rfl rfl rfl) run
  checkedBody _ _ before := before.same rfl rfl rfl rfl
  checkedFile _ _ before := before.same rfl rfl rfl rfl
  defer _ _ before _ := before.same rfl rfl rfl rfl
  next _ _ _ before _ := before.same rfl rfl rfl rfl

/-! Binding files -/

/-- Something is noted; the file is one of the given ones. -/
def State.NotedFor (s : State) (files : List SourceFile) (note : Note) : Prop := ∃ g ∈ files, s.Noted g.name note

section Start

variable {s t : State} {files : List SourceFile}

/-- What is noted stays noted while some file is bound. -/
theorem State.Binds.notedFor {f : SourceFile} (binds : s.Binds f.name t) (member : f ∈ files) {note : Note}
    (noted : s.NotedFor files note) : t.NotedFor files note := by
  obtain ⟨g, there, noted⟩ := noted
  cases note with
  | file id =>
    rcases binds.files id with same | new
    · exact ⟨g, there, same.trans noted⟩
    · exact ⟨f, member, new⟩
  | scope id => exact ⟨g, there, binds.scopes id noted⟩
  | container id => exact ⟨g, there, binds.containers id noted⟩

/-- Binding some of the files comes to an end. Something is noted about all their nodes, and only files have
diagnostics. -/
theorem bindFilesEnd {some : List SourceFile} (members : some ⊆ files) (s : State) :
    ∃ t, (some.forM bindFile).run s = .ok ((), t) ∧ (∀ note, s.NotedFor files note → t.NotedFor files note) ∧
      (∀ f ∈ some, ∀ n, f.HasNode n → ∀ note ∈ notesOf n, t.NotedFor files note) ∧
      ∀ name, (∀ g ∈ files, g.name ≠ name) → t.reported name = s.reported name := by
  induction some generalizing s with
  | nil => exact ⟨s, rfl, fun _ => id, by simp, fun _ _ => rfl⟩
  | cons f some ih =>
    obtain ⟨here, others⟩ := List.cons_subset.mp members
    obtain ⟨⟨⟩, t, bound, binds, noted⟩ := bindFileLeaves f s
    obtain ⟨u, ran, stays, rest, silent⟩ := ih others t
    refine ⟨u, (runThen bound).trans ran, fun note before => stays note (binds.notedFor here before), ?_, fun name apart => ?_⟩
    · rintro g member n has note due
      rcases List.mem_cons.mp member with rfl | later
      · exact stays note ⟨g, here, noted note (belowFile has due)⟩
      · exact rest g later n has note due
    · exact (silent name apart).trans ((binds.reported name).2 (apart f here).symm)

theorem startEnds (files : List SourceFile) : ∃ s, start files = .ok s ∧
    (∀ f ∈ files, ∀ n, f.HasNode n → ∀ note ∈ notesOf n, s.NotedFor files note) ∧
    ∀ name, (∀ g ∈ files, g.name ≠ name) → s.reported name = [] := by
  obtain ⟨s, ran, -, noted, silent⟩ := bindFilesEnd (List.Subset.refl files) State.initial
  refine ⟨s, ?_, noted, fun name apart => (silent name apart).trans (Std.HashMap.getD_empty ..)⟩
  unfold start
  rw [ran]
  rfl

end Start

/-- The diagnostic is given whenever the diagnostics of the file are collected from now on. Once the file has been checked,
collecting them comes to an end. -/
structure State.Gives (t : State) (g : SourceFile) (d : Diagnostic) : Prop where
  given : ∀ u, t.Leads u → ∀ found v, (diagnosticsOf g).run u = .ok (found, v) → d ∈ found
  ends : ∀ u, t.Leads u → g.name ∈ u.checkedFiles → ∃ found, (diagnosticsOf g).run u = .ok (found, u)

/-- What is kept with a file is given. -/
theorem keptGiven {t : State} {g : SourceFile} {d : Diagnostic} (kept : d ∈ t.reported g.name) : t.Gives g d where
  given u leads found v collected := by
    obtain ⟨checked, rfl⟩ := collectedRun collected
    have asked : (Question.file g).after answers u = some v := stateAfterIff.mpr ⟨(), checked⟩
    have later : t.Leads v := .next depthLimit leads trivial asked
    have grows : t.Continues v := later.keeps (.refl t)
    exact (List.mergeSort_perm (v.reported g.name) Diagnostic.notAfter).mem_iff.mpr ((grows.reported g.name).mem kept)
  ends _ _ checked := ⟨_, diagnosticsRun (checkFileAgain checked)⟩

/-- Binding comes to an end and notes the file of every node, the scope and the function around every identifier, and the
function around every return, `await` and variable. Errors that are raised in a file while it is bound are kept with it,
and so is, from then on, every error about a node of a program: it is kept with a file of the program and given when the
diagnostics of this file are collected. -/
theorem errorsFiled (files : List SourceFile) :
    (∀ (f : SourceFile) (s : State), ∃ t, (bindFile f).run s = .ok ((), t) ∧
      (∀ n, f.HasNode n → ∀ note ∈ notesOf n, t.Noted f.name note) ∧
      ∀ name, name ≠ f.name → t.reported name = s.reported name) ∧
    ∃ s, start files = .ok s ∧ (∀ f ∈ files, ∀ n, f.HasNode n → ∀ note ∈ notesOf n, s.NotedFor files note) ∧
      (∀ name, (∀ g ∈ files, g.name ≠ name) → s.reported name = []) ∧
      ∀ t, s.Leads t →
        (∃ raised, s.Files t raised ∧ ∀ r ∈ raised, (∃ f ∈ files, ∃ n, f.HasNode n ∧ n.mark = r.mark) →
          ∃ g ∈ files, s.fileFor r.mark = g.name ∧ r.diagnostic s ∈ t.reported g.name) ∧
        ∀ g ∈ files, ∀ d ∈ t.reported g.name, t.Gives g d := by
  refine ⟨fun f s => ?_, ?_⟩
  · obtain ⟨⟨⟩, t, bound, binds, noted⟩ := bindFileLeaves f s
    exact ⟨t, bound, fun n has note due => noted note (belowFile has due), fun name apart => (binds.reported name).2 apart⟩
  · obtain ⟨s, started, noted, silent⟩ := startEnds files
    refine ⟨s, started, noted, silent, fun t leads => ⟨?_, fun g _ d kept => keptGiven kept⟩⟩
    have filed : s.Filed t := leads.keeps ⟨[], .refl s⟩
    obtain ⟨raised, filed⟩ := filed
    refine ⟨raised, filed, fun r member ⟨f, there, n, has, about⟩ => ?_⟩
    have due : Note.file n.mark.id ∈ notesOf n := by
      unfold notesOf
      unfold Node.mark Source.Stmt.mark
      unfold Expr.mark
      split <;> simp
    obtain ⟨g, own, found⟩ := noted f there n has _ due
    have own' : s.fileFor r.mark = g.name := by
      rw [← about, State.fileFor, show s.fileOf[n.mark.id]? = some g.name from found, Option.getD_some]
    refine ⟨g, own, own', ?_⟩
    rw [filed.kept]
    exact List.mem_append_right _ (List.mem_map_of_mem (List.mem_filter.mpr ⟨member, decide_eq_true own'⟩))

/-- `declare function f(p: { a: number; a: string }): number` -/
def declaringTwice : SourceFile :=
  let member (n : Nat) (type : String) : Source.TypeMember :=
    .property (markAt n) "a" (.ref (markAt (n + 1)) type []) false
  let type : TypeNode := .members (markAt 3) [member 4 "number", member 6 "string"]
  let params : List Source.Param := [.mk (markAt 2) "p" (some type) false false]
  ⟨"/lib.d.ts", [.function (markAt 1) "f" params (some (.ref (markAt 8) "number" [])) none false true], []⟩

/-- `f({ a: 1 })` -/
def callingDeclared : SourceFile :=
  let object : Expr := .object (markAt 13) [.mk (markAt 14) "a" (.number (markAt 15) (.int 1) "1") false]
  ⟨"/f.ts", [.expr (markAt 10) (.call (markAt 11) (.ident (markAt 12) "f") [object])], []⟩

/-- The members of the type of `p` are first looked at when the second file is checked. Both files have no diagnostics when
they are collected, one after the other, and the first has one afterwards. -/
theorem libraryReportedLate : ∃ s t u d, start [declaringTwice, callingDeclared] = .ok s ∧
    (diagnosticsOf declaringTwice).run s = .ok ([], t) ∧ (diagnosticsOf callingDeclared).run t = .ok ([], u) ∧
    (diagnosticsOf declaringTwice).run u = .ok ([d], u) := by
  obtain ⟨q, levels⟩ := answersStep
  obtain ⟨fuel, limit⟩ := bodiesWait
  have found : ((start [declaringTwice, callingDeclared]).toOption.bind fun s =>
      ((checkFile declaringTwice).run s).toOption.bind fun first =>
      ((checkFile callingDeclared).run first.2).toOption.map fun second =>
        (first.2.reported "/lib.d.ts", second.2.reported "/f.ts", second.2.reported "/lib.d.ts")) =
        some ([], [], [saidAt "/lib.d.ts" (.duplicateIdentifier "a")]) := by
    simp only [checkFile, levels, limit]
    cbv
  obtain ⟨s, started, found⟩ := Option.bind_eq_some_iff.mp found
  obtain ⟨⟨⟨⟩, t⟩, first, found⟩ := Option.bind_eq_some_iff.mp found
  obtain ⟨⟨⟨⟩, u⟩, second, found⟩ := Option.map_eq_some_iff.mp found
  simp only [Prod.mk.injEq] at found
  obtain ⟨silent, quiet, said⟩ := found
  have before := diagnosticsRun (okOfSome first)
  rw [show t.reported declaringTwice.name = [] from silent, Diagnostic.sort, List.mergeSort_nil] at before
  have between := diagnosticsRun (okOfSome second)
  rw [show u.reported callingDeclared.name = [] from quiet, Diagnostic.sort, List.mergeSort_nil] at between
  have asked : (Question.file callingDeclared).after answers t = some u := stateAfterIff.mpr ⟨(), okOfSome second⟩
  have leads : t.Leads u := .next depthLimit .none trivial asked
  have stays : t.StaysChecked u := leads.keeps (.refl t)
  have after := diagnosticsRun (checkFileAgain (stays.files (fileMarked (okOfSome first))))
  rw [show u.reported declaringTwice.name = _ from said, Diagnostic.sort, List.mergeSort_singleton] at after
  exact ⟨s, t, u, _, okOfSome started, before, between, after⟩

end Fragment.Typing
