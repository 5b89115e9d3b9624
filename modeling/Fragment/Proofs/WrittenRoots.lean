import Fragment.Proofs.BlockStructure

/-! What emission has written when it ends.
The roots are gone through in order, each is written before the next one is looked at, and the first root that could
not be parsed ends the run. -/
namespace Fragment

namespace Compilation

variable {c : Compilation} {accept : String → Except CompileError Unit} {s t : Typing.State} {root : String}
  {roots : List String} {written made : List (String × Target.Module)} {out : Output}

def hasParsed (c : Compilation) (root : String) : Bool := (c.source? root).isSome

/-- Makes the code of parsed roots one after the other, none for declarations. -/
inductive Writes (c : Compilation) (accept : String → Except CompileError Unit) :
    Typing.State → List String → List (String × Target.Module) → Typing.State → Prop
  | done {s : Typing.State} : Writes c accept s [] [] s
  | declares {s t : Typing.State} {root : String} {rest : List String} {made : List (String × Target.Module)}
      {file : Source.SourceFile} (parsed : c.source? root = some file) (declares : file.isDeclaration = true)
      (later : Writes c accept s rest made t) : Writes c accept s (root :: rest) made t
  | writes {s mid t : Typing.State} {root : String} {rest : List String} {made : List (String × Target.Module)}
      {file : Source.SourceFile} {code : Target.Module} (parsed : c.source? root = some file)
      (runs : file.isDeclaration = false) (emitted : Emit.emitFile file c.options.module s = .ok (code, mid))
      (accepted : accept (outputPathOf root) = .ok ()) (later : Writes c accept mid rest made t) :
      Writes c accept s (root :: rest) ((outputPathOf root, code) :: made) t

/-- What emission says of roots for which it has written some code. -/
def outcome (c : Compilation) (roots : List String) (written : List (String × Target.Module)) : Output :=
  { skipped := roots.any (!c.hasParsed ·)
    diagnostics := (roots.find? (!c.hasParsed ·)).elim [] c.syntaxOf
    written }

theorem emitRootsWrites (ended : c.emitRoots accept s written roots = .ok (out, t)) :
    ∃ made, c.Writes accept s (roots.takeWhile c.hasParsed) made t ∧ out = c.outcome roots (written ++ made) := by
  induction roots generalizing s written with
  | nil =>
    cases ended
    exact ⟨[], .done, by simp [outcome]⟩
  | cons root rest ih =>
    unfold emitRoots at ended
    split at ended
    next unparsed =>
      cases ended
      refine ⟨[], ?_, ?_⟩
      · rw [List.takeWhile_cons_of_neg (by simp [hasParsed, unparsed])]
        exact .done
      · simp [outcome, hasParsed, unparsed]
    next file parsed =>
      have known : c.hasParsed root = true := by simp [hasParsed, parsed]
      have later (more : List (String × Target.Module)) : c.outcome (root :: rest) more = c.outcome rest more := by
        simp [outcome, known]
      rw [List.takeWhile_cons_of_pos known]
      split at ended
      case isTrue declares =>
        obtain ⟨made, run, ends⟩ := ih ended
        exact ⟨made, .declares parsed declares run, ends.trans (later _).symm⟩
      case isFalse runs =>
        obtain ⟨⟨code, mid⟩, emitted, ended⟩ := okBind ended
        obtain ⟨⟨⟩, accepted, ended⟩ := okBind ended
        obtain ⟨made, run, ends⟩ := ih ended
        refine ⟨(outputPathOf root, code) :: made, ?_, ?_⟩
        · exact .writes parsed (by simpa using runs) emitted (okMapError accepted) run
        · rw [ends, later, List.append_assoc, List.singleton_append]

end Compilation

theorem Emit.emitFileSource {file : Source.SourceFile} {kind : ModuleKind} {s after : Typing.State} {code : Target.Module}
    (made : emitFile file kind s = .ok (code, after)) : code.source = file.name := by
  unfold emitFile at made
  obtain ⟨⟨⟨⟩, checked⟩, -, made⟩ := okBind made
  obtain ⟨⟨lowered, progress⟩, run, made⟩ := okBind made
  cases made
  unfold lowerFile at run
  cases kind with
  | script =>
    obtain ⟨⟨lines, mid⟩, -, run⟩ := okBind run
    cases run
    rfl
  | closure =>
    obtain ⟨⟨own, p⟩, -, run⟩ := okBind run
    obtain ⟨⟨lines, q⟩, -, run⟩ := okBind run
    obtain ⟨⟨statements, r⟩, -, run⟩ := okBind run
    cases run
    rfl

namespace Compilation

variable {c : Compilation} {accept : String → Except CompileError Unit} {s t : Typing.State} {roots : List String}
  {options : Options} {files : Files} {made : List (String × Target.Module)} {out : Output}

theorem Named.source {path : String} {file : Source.SourceFile} (named : c.Named) (known : c.source? path = some file) :
    file.name = path := by
  obtain ⟨_, _, sources, _⟩ := List.lookup_eq_some_iff.mp known
  exact named (path, file) (by simp [sources])

theorem Writes.paths (named : c.Named) (run : c.Writes accept s roots made t) :
    made.map (fun entry => (entry.1, entry.2.source)) =
      (roots.filter (!Source.isDeclarationName ·)).map fun root => (outputPathOf root, root) := by
  induction run with
  | done => rfl
  | declares parsed declares _ ih =>
    rw [Source.SourceFile.isDeclaration, named.source parsed] at declares
    rw [List.filter_cons_of_neg (by simp [declares]), ih]
  | writes parsed runs emitted _ _ ih =>
    have source := (Emit.emitFileSource emitted).trans (named.source parsed)
    rw [Source.SourceFile.isDeclaration, named.source parsed] at runs
    rw [List.filter_cons_of_pos (by simp [runs]), List.map_cons, List.map_cons, ih, source]

/-- Each root ahead of the first unparsed one that is more than declarations has been written once, in order. The paths
are told only where all roots are parsed, and otherwise there is no code only if there are declarations alone ahead. -/
theorem emitWritesParsed (loaded : load roots options files = .ok c) (ended : c.emit s = .ok (out, t)) :
    out.written.map (fun entry => (entry.1, entry.2.source)) =
      ((roots.takeWhile c.hasParsed).filter (!Source.isDeclarationName ·)).map (fun root => (outputPathOf root, root)) ∧
    (out.skipped = false ↔ ∀ root ∈ roots, c.hasParsed root = true) ∧
    (out.skipped = false → out.paths = (roots.filter (!Source.isDeclarationName ·)).map outputPathOf ∧
      out.written.map (·.1) = out.paths) ∧
    (out.skipped = true → out.paths = [] ∧
      (out.written = [] ↔ ∀ root ∈ roots.takeWhile c.hasParsed, Source.isDeclarationName root = true)) := by
  obtain ⟨named, own⟩ := loadKeeps loaded
  unfold emit at ended
  rw [own] at ended
  obtain ⟨made, run, ends⟩ := emitRootsWrites ended
  have told := run.paths named
  have plain : out.written = made := by rw [ends]; rfl
  have skips : out.skipped = roots.any (!c.hasParsed ·) := by rw [ends]; rfl
  have kept : out.skipped = false ↔ ∀ root ∈ roots, c.hasParsed root = true := by simp [skips]
  refine ⟨plain ▸ told, kept, fun whole => ?_, fun left => ⟨by simp [Output.paths, left], ?_⟩⟩
  · have all : roots.takeWhile c.hasParsed = roots := List.takeWhile_eq_self_iff.mpr (kept.mp whole)
    have paths : out.written.map (·.1) = out.paths := by simp [Output.paths, whole]
    refine ⟨?_, paths⟩
    calc out.paths
      _ = made.map (·.1) := by rw [← paths, plain]
      _ = (made.map fun entry => (entry.1, entry.2.source)).map (·.1) := by simp
      _ = _ := by rw [told, all]; simp
  · calc out.written = []
      _ ↔ made.map (fun entry => (entry.1, entry.2.source)) = [] := by rw [plain, List.map_eq_nil_iff]
      _ ↔ _ := by rw [told, List.map_eq_nil_iff, List.filter_eq_nil_iff]; simp

end Compilation

/-- A file that parses and one behind it that does not, where no library is needed. -/
theorem pairLoaded {options : Options} {files : Files} {good bad text broken : String} {file : Source.SourceFile}
    {next : Nat} {problem : Diagnostic} (alone : options.libraries = []) (apart : good ≠ bad)
    (first : files.read good = .ok text) (second : files.read bad = .ok broken)
    (parsed : Source.parseFrom 0 text good = .ok (file, next))
    (refused : Source.parseFrom next broken bad = .error (.diagnostic problem)) :
    ∃ c, Compilation.load [good, bad] options files = .ok c ∧ c.options = options ∧ c.source? good = some file ∧
      c.source? bad = none ∧ c.sourceFiles = [file] := by
  have idle (fuel : Nat) (c : Compilation) : Compilation.readLibraries fuel [] c = .ok c := by
    cases fuel <;> rfl
  unfold Compilation.load
  rw [alone]
  simp [idle, Compilation.readRoots, Compilation.read, first, second, parsed, refused, Failure.ofError, Except.mapError,
    bind, Except.bind, pure, Except.pure, Compilation.put, Compilation.source?, Compilation.sourceFiles, apart.symm]

/-- The fragment `true` and a file that has no first token. -/
def truthAndBroken : Files := ⟨[(rootPath, "true"), ("/bad.ts", "#")]⟩

theorem truthAheadOfBroken : ∃ c s out after,
    Compilation.load [rootPath, "/bad.ts"] { module := .closure, lib := some [] } truthAndBroken = .ok c ∧
    c.checker = .ok s ∧ c.emit s = .ok (out, after) ∧ out.skipped = true ∧ out.written = [(outputPath, truthCode)] := by
  obtain ⟨m, n, next, parsed⟩ := truthParsed
  obtain ⟨problem, refused⟩ : ∃ problem, Source.parseFrom next "#" "/bad.ts" = .error (.diagnostic problem) := by
    obtain ⟨e, unread⟩ : ∃ e, Source.tokens "#" = .error e := ⟨_, rfl⟩
    exact ⟨e.diagnostic "/bad.ts", by simp only [Source.parseFrom, unread]; rfl⟩
  have first : truthAndBroken.read rootPath = .ok "true" := rfl
  have second : truthAndBroken.read "/bad.ts" = .ok "#" := rfl
  have alone : ({ module := .closure, lib := some [] } : Options).libraries = [] := rfl
  obtain ⟨c, loaded, options, known, unknown, files⟩ := pairLoaded alone (by decide) first second parsed refused
  obtain ⟨s, started, types, unchecked, idle⟩ : ∃ s, Typing.start [truthFile m n] = .ok s ∧ s.nodeTypes = {} ∧
      s.checkedFiles = [] ∧ s.deferred = [] := ⟨_, rfl, rfl, rfl, rfl⟩
  obtain ⟨after, made⟩ := truthEmitted m n types unchecked idle
  have roots := (Compilation.loadKeeps loaded).2
  have runs : (truthFile m n).isDeclaration = false := by
    have plain : Source.isDeclarationName rootPath = false := by decide +kernel
    exact plain
  have path : outputPathOf rootPath = outputPath := by decide +kernel
  have checker : c.checker = .ok s := by
    rw [Compilation.checker, files, started]
    rfl
  have emitted : c.emit s = .ok (⟨true, c.syntaxOf "/bad.ts", [(outputPath, truthCode)]⟩, after) := by
    simp [Compilation.emit, roots, Compilation.emitRoots, known, unknown, runs, options, made, path, Failure.ofError,
      Except.mapError, bind, Except.bind, pure, Except.pure]
  exact ⟨c, s, _, after, loaded, checker, emitted, rfl, rfl⟩

theorem truthWritten : ∃ c s out after,
    Compilation.load [rootPath, "/bad.ts"] { module := .closure, lib := some [] } truthAndBroken = .ok c ∧
    c.emit s = .ok (out, after) ∧ out.skipped = true ∧ out.paths = [] ∧ out.written = [(outputPath, truthCode)] ∧
    ∃ root ∈ [rootPath, "/bad.ts"].takeWhile c.hasParsed, Source.isDeclarationName root = false := by
  obtain ⟨c, s, out, after, loaded, -, emitted, skipped, written⟩ := truthAheadOfBroken
  obtain ⟨-, -, -, left⟩ := Compilation.emitWritesParsed loaded emitted
  obtain ⟨paths, idle⟩ := left skipped
  have code : ¬∀ root ∈ [rootPath, "/bad.ts"].takeWhile c.hasParsed, Source.isDeclarationName root = true :=
    mt idle.mpr (by simp [written])
  exact ⟨c, s, out, after, loaded, emitted, skipped, paths, written, by simpa using code⟩

theorem skippedLeavesCode : ¬∀ (roots : List String) (options : Options) (files : Files) (c : Compilation)
    (s after : Typing.State) (out : Output), Compilation.load roots options files = .ok c → c.checker = .ok s →
    c.emit s = .ok (out, after) → out.skipped = true → out.written = [] := by
  intro nothing
  obtain ⟨c, s, out, after, loaded, started, emitted, skipped, written⟩ := truthAheadOfBroken
  have none := nothing _ _ _ c s after out loaded started emitted skipped
  simp [written] at none

end Fragment
