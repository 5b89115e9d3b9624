import Fragment.Proofs.Indentation
import Fragment.Proofs.LabelledFiles
import Fragment.Proofs.RoundTrip
import Fragment.Proofs.WordedLowering
import Fragment.Request.Structure

/-! The block structure of emitted code.
Whatever a compilation has asked its checker before, the lines of the text of its code are those that the code was
put together from, a deeper part stands behind each head and nowhere else, and each other branch stands behind
the branch of a condition. -/
namespace Fragment

open Source (SourceFile Mark IsWord LabelledStmts)
open Typing (State)

namespace Compilation

/-- The states in which the checker of a compilation can be: at the start, and after questions for
diagnostics, for the description of a fragment and for code. -/
inductive Reaches (c : Compilation) : State → Prop
  | start {s : State} (started : c.checker = .ok s) : Reaches c s
  | diagnosed {s t : State} {found : List Diagnostic} (before : Reaches c s)
      (asked : c.diagnostics.run s = .ok (found, t)) : Reaches c t
  | described {s t : State} {path : String} {file : SourceFile} {e : Source.Expr} {d : Except CompileError Description}
      (before : Reaches c s) (known : c.source? path = some file) (single : Request.fragmentExpr file = .ok e)
      (asked : (Description.ofExpr e).run.run s = .ok (d, t)) : Reaches c t
  | emitted {s t : State} {path : String} {file : SourceFile} {kind : ModuleKind} {code : Target.Module}
      (before : Reaches c s) (known : c.source? path = some file)
      (made : Emit.emitFile file kind s = .ok (code, t)) : Reaches c t

theorem fragmentLabelled {A : Nat → Prop} {file : SourceFile} {e : Source.Expr}
    (labelled : LabelledStmts IsWord A file.statements) (single : Request.fragmentExpr file = .ok e) :
    e.Labelled IsWord A := by
  obtain ⟨m, only⟩ := Request.fragmentSingle single
  rw [only] at labelled
  exact labelled.1

theorem Reaches.labelled {c : Compilation} {A : Nat → Prop}
    (labelled : ∀ entry ∈ c.sources, LabelledStmts IsWord A entry.2.statements) {s : State} (reached : c.Reaches s) :
    s.Labelled IsWord A fun _ => False := by
  induction reached with
  | start started => exact checkerLabelled labelled started
  | diagnosed _ asked before => exact (diagnosticsKeeps labelled).keeps _ _ _ before asked
  | described _ known single asked before =>
    have expr := fragmentLabelled (sourceLabelled labelled known) single
    exact (Description.ofExprKeeps expr).keeps _ _ _ before asked
  | emitted _ known made before => exact (Emit.emitFileWords (sourceLabelled labelled known) before made).1

end Compilation

/-- A text whose steps of parsing all succeed parses. -/
theorem parsesSteps {start next : Nat} {text path : String} {raw : List Source.Token} {trees : List Source.Tree}
    {statements : List Source.Stmt} (lexed : Source.tokens text = .ok raw)
    (recognized : Source.treeOf (Source.layOut raw) = .ok trees)
    (built : ((trees.flatMap Source.Tree.nodes).mapM (Source.buildStmt (Source.buildDepth (Source.layOut raw)))).run
      start = .ok (statements, next)) :
    Source.parseFrom start text path = .ok (⟨path, statements, Source.references text⟩, next) := by
  simp only [Source.parseFrom, lexed, recognized, built, Except.mapError, bind, Except.bind, pure, Except.pure]

/-- A fragment that parses and needs no library is the only file of its compilation. -/
theorem fragmentLoaded {options : Options} {text : String} {file : SourceFile} {next : Nat}
    (alone : options.libraries = []) (parsed : Source.parseFrom 0 text rootPath = .ok (file, next)) :
    ∃ c, Compilation.load [rootPath] options (Files.forFragment text {}) = .ok c ∧
      c.source? rootPath = some file ∧ c.sourceFiles = [file] := by
  have idle (fuel : Nat) (c : Compilation) : Compilation.readLibraries fuel [] c = .ok c := by
    cases fuel <;> rfl
  have there : (Files.forFragment text {}).read rootPath = .ok text := by
    simp [Files.read, Files.forFragment, Files.insert, Files.setEntry]
  unfold Compilation.load
  rw [alone]
  simp [idle, Compilation.readRoots, Compilation.read, there, parsed, Failure.ofError, Except.mapError, bind,
    Except.bind, pure, Except.pure, Compilation.put, Compilation.source?, Compilation.sourceFiles]

theorem nothingDeferred {s : State} (idle : s.deferred = []) :
    (Typing.answers.checkDeferred Typing.bodyLimit).run s = .ok ((), s) := by
  obtain ⟨fuel, enough⟩ : ∃ fuel, Typing.bodyLimit = fuel + 1 := ⟨Typing.bodyLimit - 1, by decide⟩
  unfold Typing.Queries.checkDeferred
  rw [enough]
  dsimp only
  rw [Typing.runGet, idle]
  rfl

/-- The fragment `true`, parsed. -/
def truthFile (m n : Mark) : SourceFile := ⟨rootPath, [.expr m (.boolean n true)], Source.references "true"⟩

theorem truthParsed : ∃ m n next, Source.parseFrom 0 "true" rootPath = .ok (truthFile m n, next) := by
  obtain ⟨word, last, lexed, laidOut, spelled, ends⟩ : ∃ word last, Source.tokens "true" = .ok [word] ∧
      Source.layOut [word] = [word] ++ [last] ∧ word.word = ⟨.trueWord, "true"⟩ ∧ last.kind = .terminator :=
    ⟨_, _, rfl, rfl, rfl, rfl⟩
  have words : [word].map Source.Token.word = (Source.Expr.boolean ⟨0, ⟨1, 1⟩, ⟨1, 1⟩⟩ true).words 0 := by
    simp [spelled, Source.Expr.words]
  have enough : [word].length < Source.buildDepth [word, last] := by simp [Source.buildDepth]
  obtain ⟨tree, extent, extent', shows, recognized⟩ := Source.Grammar.treeOfFormula (.boolean _ _) words ends
  obtain ⟨m, e, next, built, alike⟩ := Source.buildsStatement shows enough extent' last 0
  cases alike with
  | boolean n _ _ =>
    refine ⟨m, n, next, parsesSteps lexed (laidOut ▸ recognized) ?_⟩
    change (List.mapM (Source.buildStmt (Source.buildDepth (Source.layOut [word])))
      [Source.Tree.node .exprStmt extent' [tree, .leaf last]]).run 0 = _
    rw [laidOut, List.mapM_cons, StateT.run_bind, List.singleton_append, built]
    rfl

/-- The checker accepts it where it has looked at nothing yet. -/
theorem truthChecked (m n : Mark) {s : State} (types : s.nodeTypes = {}) (unchecked : s.checkedFiles = [])
    (idle : s.deferred = []) : ∃ t, (Typing.Check.checkFile (truthFile m n)).run s = .ok ((), t) := by
  let entered : State := { s with checkedFiles := rootPath :: s.checkedFiles }
  obtain ⟨t, s', typed, waiting⟩ : ∃ t s',
      (Typing.answers.typeOfExpr (.boolean n true) none).run entered = .ok (t, s') ∧ s'.deferred = s.deferred := by
    have fresh : entered.nodeTypes[(Source.Expr.boolean n true).mark.id]? = none := by
      unfold Source.Expr.mark
      simp [entered, types]
    have run := Typing.typeOfUnnoted fresh 999 none
    exact ⟨_, _, run, rfl⟩
  have statement : (Typing.answers.checkStatements [.expr m (.boolean n true)]).run entered = .ok ((), s') := by
    change (((fun _ => ()) <$> Typing.answers.typeOfExpr (.boolean n true) none : Typing.Check Unit) >>= fun _ =>
      pure ()).run entered = _
    rw [StateT.run_bind, StateT.run_map, typed]
    rfl
  have run : (Typing.Check.checkFile (truthFile m n)).run s =
      (if s.checkedFiles.contains rootPath then (pure () : Typing.Check Unit) else do
        modify fun s : State => { s with checkedFiles := rootPath :: s.checkedFiles }
        Typing.answers.checkStatements [.expr m (.boolean n true)]
        Typing.answers.checkDeferred Typing.bodyLimit).run s := rfl
  refine ⟨s', ?_⟩
  rw [run, if_neg (by simp [unchecked]), StateT.run_bind]
  change (Typing.answers.checkStatements [.expr m (.boolean n true)] >>= fun _ =>
    Typing.answers.checkDeferred Typing.bodyLimit).run entered = _
  rw [StateT.run_bind, statement]
  exact nothingDeferred (waiting.trans idle)

/-- The code of the fragment `true` in a closure. -/
def truthCode : Target.Module :=
  ⟨rootPath, [
    .define Target.moduleName false [] [
      .assign Target.completionName .none,
      .assign Target.completionName (.bool true),
      .ret (.name Target.completionName)],
    .assign Target.completionName (.call (.name Target.moduleName) [])]⟩

theorem truthEmitted (m n : Mark) {s : State} (types : s.nodeTypes = {}) (unchecked : s.checkedFiles = [])
    (idle : s.deferred = []) : ∃ after, Emit.emitFile (truthFile m n) .closure s = .ok (truthCode, after) := by
  obtain ⟨t, checked⟩ := truthChecked m n types unchecked idle
  have lowered (context : Emit.Context) (p : Emit.Progress) :
      ((Emit.lowerFile (truthFile m n) .closure).run context).run p = .ok (truthCode, p) := rfl
  refine ⟨t, ?_⟩
  unfold Emit.emitFile
  simp only [checked, Failure.ofFault, Except.mapError, lowered, bind, Except.bind, pure, Except.pure]

/-- The text of emitted code has the lines that the code was put together from, and these are one block. -/
theorem emittedBlocks {options : Options} {files : Files} {c : Compilation} {file : SourceFile} {s after : State}
    {kind : ModuleKind} {code : Target.Module} (loaded : Compilation.load [rootPath] options files = .ok c)
    (reached : c.Reaches s) (root : c.source? rootPath = some file)
    (made : Emit.emitFile file kind s = .ok (code, after)) :
    Text.lines code.render.toList = code.lines.map (fun l => l.render.toList) ∧ Target.Block 0 code.lines := by
  obtain ⟨own, told⟩ := Compilation.loadLabelled loaded
  have labelled := told own fun _ _ => Iff.rfl
  obtain ⟨-, source, worded⟩ :=
    Emit.emitFileWords (Compilation.sourceLabelled labelled root) (reached.labelled labelled) made
  have name : file.name = rootPath := by
    obtain ⟨_, _, sources, _⟩ := List.lookup_eq_some_iff.mp root
    exact (Compilation.loadKeeps loaded).1 (rootPath, file) (by simp [sources])
  have plain : Target.Unbroken code.source := by
    rw [source, name]
    decide
  have block := Target.Module.linesBlock plain worded
  exact ⟨Target.Module.linesOfRender block, block⟩

set_option maxRecDepth 2048 in
theorem truthBlocks : ∃ c m n s after,
    Compilation.load [rootPath] { module := .closure, lib := some [] } (Files.forFragment "true" {}) = .ok c ∧
    c.Reaches s ∧ c.source? rootPath = some (truthFile m n) ∧
    Emit.emitFile (truthFile m n) .closure s = .ok (truthCode, after) ∧
    truthCode.render = "# Generated by fragc from /fragment.ts.\ndef __module__():\n    __completion__ = None\n" ++
      "    __completion__ = True\n    return __completion__\n__completion__ = __module__()\n" ∧
    Text.lines truthCode.render.toList = truthCode.lines.map (fun l => l.render.toList) ∧
    Target.Block 0 truthCode.lines := by
  obtain ⟨m, n, next, parsed⟩ := truthParsed
  have alone : ({ module := .closure, lib := some [] } : Options).libraries = [] := rfl
  obtain ⟨c, loaded, root, files⟩ := fragmentLoaded alone parsed
  obtain ⟨s, started, types, unchecked, idle⟩ : ∃ s, Typing.start [truthFile m n] = .ok s ∧ s.nodeTypes = {} ∧
      s.checkedFiles = [] ∧ s.deferred = [] := ⟨_, rfl, rfl, rfl, rfl⟩
  obtain ⟨after, made⟩ := truthEmitted m n types unchecked idle
  have reached : c.Reaches s := .start (by rw [Compilation.checker, files, started]; rfl)
  exact ⟨c, m, n, s, after, loaded, reached, root, made, by decide, emittedBlocks loaded reached root made⟩

end Fragment
