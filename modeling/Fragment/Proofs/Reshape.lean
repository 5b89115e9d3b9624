import Fragment.Request.Compile
import Mathlib

/-! The shape of the module matters only when code is made.
Everything before, from reading files to checking them, is the same for both shapes, so a request for
one shape comes to the session of a request for the other. -/
namespace Fragment

open Source (SourceFile)

/-- The same compilation with another shape of the module. -/
def Compilation.shaped (kind : ModuleKind) (c : Compilation) : Compilation :=
  { c with options := { c.options with module := kind } }

/-- Each parsed file stands under its own name. -/
def Compilation.Named (c : Compilation) : Prop := ∀ entry ∈ c.sources, entry.2.name = entry.1

/-- Two steps that both come out changed in a known way. -/
theorem carried {ε α α' β β' : Type} {x : Except ε α} {g : α → α'} {f : β → β'} {k : α → Except ε β} {k' : α' → Except ε β'}
    (h : ∀ a, k' (g a) = f <$> k a) : (g <$> x) >>= k' = f <$> (x >>= k) := by
  cases x with
  | error e => rfl
  | ok a => exact h a

theorem okBind {ε α β : Type} {x : Except ε α} {k : α → Except ε β} {b : β} (h : (x >>= k) = .ok b) :
    ∃ a, x = .ok a ∧ k a = .ok b := by
  cases x with
  | error e => cases h
  | ok a => exact ⟨a, rfl, h⟩

theorem okMapError {ε ε' α : Type} {r : Except ε α} {f : ε → ε'} {a : α} (ok : r.mapError f = .ok a) : r = .ok a := by
  cases r with
  | error e => cases ok
  | ok b =>
    cases ok
    rfl

namespace Compilation

variable {c d : Compilation} {kind : ModuleKind}

theorem readShaped (c : Compilation) (kind : ModuleKind) (path : String) :
    (c.shaped kind).read path = (fun r => (r.1, r.2.shaped kind)) <$> c.read path := by
  simp only [Compilation.read, shaped]
  cases Failure.ofError (c.files.read path) with
  | error f => rfl
  | ok text =>
    simp only [bind, Except.bind]
    split <;> rfl

theorem readLibrariesShaped (kind : ModuleKind) (fuel : Nat) (queue : List String) (c : Compilation) :
    readLibraries fuel queue (c.shaped kind) = shaped kind <$> readLibraries fuel queue c := by
  induction fuel generalizing queue c with
  | zero => rfl
  | succ fuel ih =>
    cases queue with
    | nil => rfl
    | cons name queue =>
      unfold readLibraries
      simp only [readShaped]
      change (if c.order.contains (libraryPath name) then _ else _) = _
      split
      case isTrue => exact ih queue c
      case isFalse =>
        refine carried fun r => ?_
        rw [← ih]
        rfl

theorem readRootsShaped (kind : ModuleKind) (roots : List String) (c : Compilation) :
    readRoots roots (c.shaped kind) = shaped kind <$> readRoots roots c := by
  induction roots generalizing c with
  | nil => rfl
  | cons root rest ih =>
    unfold readRoots
    simp only [readShaped]
    exact carried fun r => ih r.2

theorem loadShaped (kind : ModuleKind) (roots : List String) (options : Options) (files : Files) :
    load roots { options with module := kind } files = shaped kind <$> load roots options files := by
  simp only [load]
  split
  case isTrue => rfl
  case isFalse =>
    have first (fuel : Nat) : readLibraries fuel options.libraries { options := { options with module := kind }, roots, files } =
        shaped kind <$> readLibraries fuel options.libraries { options, roots, files } :=
      readLibrariesShaped kind fuel options.libraries { options, roots, files }
    simp only [Options.libraries] at first ⊢
    rw [first]
    exact carried fun c => readRootsShaped kind roots c

theorem putNamed {sources : List (String × SourceFile)} (named : ∀ entry ∈ sources, entry.2.name = entry.1) {path : String}
    {file : SourceFile} (own : file.name = path) : ∀ entry ∈ put sources path file, entry.2.name = entry.1 := by
  induction sources with
  | nil => simpa [put] using own
  | cons first rest ih =>
    have later := ih fun entry h => named entry (by simp [h])
    have here := named first (by simp)
    simp only [put]
    split
    case isTrue same =>
      intro entry member
      rcases List.mem_cons.mp member with rfl | old
      · exact own.trans same.symm
      · exact named entry (by simp [old])
    case isFalse => simpa [here] using later

theorem parseName {start next : Nat} {text path : String} {file : SourceFile}
    (h : Source.parseFrom start text path = .ok (file, next)) : file.name = path := by
  simp only [Source.parseFrom, bind, Except.bind] at h
  repeat' split at h
  all_goals cases h
  rfl

/-- Reading keeps the roots, and files stand under their names. -/
theorem readKeeps {file : Option SourceFile} {path : String} (named : c.Named) (h : c.read path = .ok (file, d)) :
    d.Named ∧ d.roots = c.roots := by
  simp only [Compilation.read, bind, Except.bind] at h
  split at h
  case h_1 => cases h
  case h_2 =>
    split at h
    case h_1 parsed =>
      cases h
      exact ⟨putNamed named (parseName parsed), rfl⟩
    case h_2 =>
      cases h
      exact ⟨named, rfl⟩
    case h_3 => cases h

theorem readLibrariesKeep {fuel : Nat} {queue : List String} (named : c.Named) (h : readLibraries fuel queue c = .ok d) :
    d.Named ∧ d.roots = c.roots := by
  induction fuel generalizing queue c with
  | zero =>
    cases h
    exact ⟨named, rfl⟩
  | succ fuel ih =>
    cases queue with
    | nil =>
      cases h
      exact ⟨named, rfl⟩
    | cons name queue =>
      unfold readLibraries at h
      dsimp only at h
      split at h
      case isTrue => exact ih named h
      case isFalse =>
        cases ended : c.read (libraryPath name) with
        | error f => simp [ended, bind, Except.bind] at h
        | ok r =>
          obtain ⟨named, roots⟩ := readKeeps named ended
          simp only [ended, bind, Except.bind] at h
          obtain ⟨named, later⟩ := ih (by exact named) h
          exact ⟨named, later.trans roots⟩

theorem readRootsKeep {roots : List String} (named : c.Named) (h : readRoots roots c = .ok d) :
    d.Named ∧ d.roots = c.roots := by
  induction roots generalizing c with
  | nil =>
    cases h
    exact ⟨named, rfl⟩
  | cons root rest ih =>
    unfold readRoots at h
    dsimp only at h
    cases ended : c.read root with
    | error f => simp [ended, bind, Except.bind] at h
    | ok r =>
      obtain ⟨named, roots⟩ := readKeeps named ended
      simp only [ended, bind, Except.bind] at h
      obtain ⟨named, later⟩ := ih named h
      exact ⟨named, later.trans roots⟩

theorem loadKeeps {roots : List String} {options : Options} {files : Files} (h : load roots options files = .ok c) :
    c.Named ∧ c.roots = roots := by
  simp only [load] at h
  split at h
  case isTrue => cases h
  case isFalse =>
    simp only [bind, Except.bind] at h
    split at h
    case h_1 => cases h
    case h_2 loaded =>
      obtain ⟨named, first⟩ := readLibrariesKeep (by simp [Named]) loaded
      obtain ⟨named, later⟩ := readRootsKeep named h
      exact ⟨named, later.trans first⟩

end Compilation

namespace Request

/-- The same session with another shape of the module. -/
def Session.shaped (kind : ModuleKind) (s : Session) : Session := { s with compilation := s.compilation.shaped kind }

theorem startShaped (kind : ModuleKind) (roots : List String) (options : Options) (files : Files) :
    start roots { options with module := kind } files = Session.shaped kind <$> start roots options files := by
  simp only [start, Compilation.loadShaped]
  refine carried fun c => ?_
  change (c.checker >>= _) = _ <$> (c.checker >>= _)
  cases c.checker <;> rfl

theorem acceptedExprShaped (kind : ModuleKind) (s : Session) :
    acceptedExpr (s.shaped kind) = (fun r => (r.1, r.2.shaped kind)) <$> acceptedExpr s := by
  have root : (s.shaped kind).compilation.source? rootPath = s.compilation.source? rootPath := rfl
  have asked : (s.shaped kind).ask (s.shaped kind).compilation.diagnostics =
      (fun r => (r.1, r.2.shaped kind)) <$> s.ask s.compilation.diagnostics := by
    change (Failure.ofFault (s.compilation.diagnostics.run s.typing) >>= _) = _
    simp only [Session.ask]
    cases Failure.ofFault (s.compilation.diagnostics.run s.typing) <;> rfl
  simp only [acceptedExpr, root, asked]
  cases s.compilation.source? rootPath with
  | none =>
    refine carried fun r => ?_
    simp only
    split <;> rfl
  | some file =>
    simp only
    cases Failure.ofError (fragmentExpr file) with
    | error f => rfl
    | ok e =>
      refine carried fun r => ?_
      simp only
      split <;> rfl

theorem fragmentSingle {file : SourceFile} {e : Source.Expr} (single : fragmentExpr file = .ok e) :
    ∃ m, file.statements = [.expr m e] := by
  unfold fragmentExpr at single
  split at single
  next m f only =>
    cases single
    exact ⟨m, only⟩
  all_goals cases single

/-- A fragment is accepted after its file was looked at without anything to say. -/
theorem acceptedParts {s t : Session} {e : Source.Expr} (h : acceptedExpr s = .ok (e, t)) :
    t.compilation = s.compilation ∧ s.compilation.diagnostics.run s.typing = .ok ([], t.typing) ∧
      ∃ file m, s.compilation.source? rootPath = some file ∧ file.statements = [.expr m e] := by
  have silent {r : List Diagnostic × Session} (asked : s.ask s.compilation.diagnostics = .ok r)
      (nothing : ¬(!r.1.isEmpty) = true) : r.2.compilation = s.compilation ∧
        s.compilation.diagnostics.run s.typing = .ok ([], r.2.typing) := by
    obtain ⟨⟨found, typing⟩, run, rest⟩ := okBind asked
    cases rest
    simp only [Bool.not_eq_true', Bool.not_eq_false, List.isEmpty_iff] at nothing
    exact ⟨rfl, nothing ▸ okMapError run⟩
  simp only [acceptedExpr] at h
  cases root : s.compilation.source? rootPath with
  | none =>
    simp only [root] at h
    obtain ⟨_, _, h⟩ := okBind h
    split at h <;> cases h
  | some file =>
    simp only [root] at h
    obtain ⟨_, _, h⟩ := okBind h
    obtain ⟨_, asked, h⟩ := okBind h
    split at h
    case isTrue => cases h
    case isFalse nothing =>
      obtain ⟨_, single, h⟩ := okBind h
      cases h
      obtain ⟨kept, run⟩ := silent asked nothing
      obtain ⟨m, only⟩ := fragmentSingle (okMapError single)
      exact ⟨kept, run, file, m, rfl, only⟩

/-- What is known of a request whose fragment is accepted. -/
theorem acceptedRequest {source : String} {options : Options} {declarations : Files} {e : Source.Expr} {s : Session}
    (accepted : (openFragment source options declarations >>= acceptedExpr) = .ok (e, s)) :
    ∃ file m typing, Compilation.load [rootPath] options (Files.forFragment source declarations) = .ok s.compilation ∧
      s.compilation.checker = .ok typing ∧ s.compilation.diagnostics.run typing = .ok ([], s.typing) ∧
      s.compilation.source? rootPath = some file ∧ file.statements = [.expr m e] := by
  obtain ⟨t, opened, accepted⟩ := okBind accepted
  obtain ⟨c, loaded, started⟩ := okBind opened
  obtain ⟨typing, begun, started⟩ := okBind started
  cases started
  obtain ⟨kept, silent, file, m, root, single⟩ := acceptedParts accepted
  rw [kept]
  exact ⟨file, m, typing, loaded, begun, silent, root, single⟩

/-- The module of a session on the fragment is the code of its root. -/
theorem singleModuleRun {s : Session} {file : SourceFile} (roots : s.compilation.roots = [rootPath])
    (root : s.compilation.source? rootPath = some file) (name : file.name = rootPath) :
    singleModule s =
      (fun r => (r.1, { s with typing := r.2 })) <$> Emit.emitFile file s.compilation.options.module s.typing := by
  have notDeclaration : file.isDeclaration = false := by
    rw [SourceFile.isDeclaration, name]
    decide +kernel
  have path : outputPathOf rootPath = "/fragment.py" := by decide +kernel
  simp only [singleModule, Compilation.emit, roots, Compilation.emitRoots, root, notDeclaration]
  cases Emit.emitFile file s.compilation.options.module s.typing with
  | error f => rfl
  | ok made =>
    simp only [bind, Except.bind, pure, Except.pure, Failure.ofError, Except.mapError, singleOutput, path]
    rfl

/-- A request for one shape comes to the session of a request for any other. -/
theorem compileSession (source : String) (options : Options) (declarations : Files) (kind : ModuleKind) :
    compile source { options with module := kind } declarations =
      (openFragment source options declarations >>= acceptedExpr) >>= fun r => (·.1) <$> singleModule (r.2.shaped kind) := by
  have reshaped : openFragment source { options with module := kind } declarations =
      Session.shaped kind <$> openFragment source options declarations := startShaped kind ..
  simp only [compile, reshaped]
  cases openFragment source options declarations with
  | error f => rfl
  | ok s =>
    change acceptedExpr (s.shaped kind) >>= _ = acceptedExpr s >>= _
    rw [acceptedExprShaped]
    cases acceptedExpr s with
    | error f => rfl
    | ok r =>
      change singleModule (r.2.shaped kind) >>= _ = (·.1) <$> singleModule (r.2.shaped kind)
      cases singleModule (r.2.shaped kind) <;> rfl

/-- A request for one shape makes the code of the root as the session of any other shape has it. -/
theorem compileEmits {source : String} {options : Options} {declarations : Files} {e : Source.Expr} {s : Session}
    {file : SourceFile} (accepted : (openFragment source options declarations >>= acceptedExpr) = .ok (e, s))
    (root : s.compilation.source? rootPath = some file) (kind : ModuleKind) :
    compile source { options with module := kind } declarations = (·.1) <$> Emit.emitFile file kind s.typing := by
  obtain ⟨_, _, _, loaded, -⟩ := acceptedRequest accepted
  obtain ⟨named, roots⟩ := Compilation.loadKeeps loaded
  have name : file.name = rootPath := by
    obtain ⟨_, _, sources, _⟩ := List.lookup_eq_some_iff.mp root
    exact named (rootPath, file) (by simp [sources])
  rw [compileSession, accepted]
  change (·.1) <$> singleModule (s.shaped kind) = _
  rw [singleModuleRun (s := s.shaped kind) roots root name]
  change _ <$> (_ <$> Emit.emitFile file kind s.typing) = _
  cases Emit.emitFile file kind s.typing <;> rfl

theorem compileShaped {source : String} {options : Options} {declarations : Files} {e : Source.Expr} {s : Session}
    {file : SourceFile} {kind : ModuleKind} {code : Target.Module} {after : Typing.State}
    (accepted : (openFragment source options declarations >>= acceptedExpr) = .ok (e, s))
    (root : s.compilation.source? rootPath = some file) (made : Emit.emitFile file kind s.typing = .ok (code, after)) :
    compile source { options with module := kind } declarations = .ok code := by
  rw [compileEmits accepted root, made]
  rfl

end Request

end Fragment
