import Fragment.Declarations
import Fragment.Source.Parse
import Fragment.Typing.Checker

/-! One compilation: the libraries that the options bring in, and the files to compile.
Libraries are read nearest first, each once, before the roots. -/
namespace Fragment

/-- Why a request has no answer. -/
inductive Failure where
  /-- The request was refused. -/
  | error (e : CompileError)
  /-- Something stopped the evaluation. -/
  | fault (f : Fault)

/-- Takes over a step that may be refused. -/
def Failure.ofError {α : Type} (r : Except CompileError α) : Except Failure α := r.mapError .error

/-- Takes over a step that a fault may stop. -/
def Failure.ofFault {α : Type} (r : Except Fault α) : Except Failure α := r.mapError .fault

/-- The files of one compilation. -/
structure Compilation where
  options : Options
  roots : List String
  files : Files
  /-- The paths read, in order. -/
  order : List String := []
  /-- The parsed files by path; of two readings of one path the later counts. -/
  sources : List (String × Source.SourceFile) := []
  /-- The diagnostics of parsing by path. -/
  syntaxProblems : List (String × List Diagnostic) := []
  /-- The diagnostics of reading libraries. -/
  libraryProblems : List Diagnostic := []
  /-- The first number that no node has. -/
  nextNode : Nat := 0

namespace Compilation

/-- Sets the value of a path, in its place if it has one. -/
def put {α : Type} : List (String × α) → String → α → List (String × α)
  | [], path, a => [(path, a)]
  | (p, b) :: rest, path, a => if p = path then (p, a) :: rest else (p, b) :: put rest path a

/-- Reads and parses one file. -/
def read (c : Compilation) (path : String) : Except Failure (Option Source.SourceFile × Compilation) := do
  let text ← Failure.ofError (c.files.read path)
  let c := { c with order := c.order ++ [path] }
  match Source.parseFrom c.nextNode text path with
  | .ok (file, next) =>
    return (some file,
      { c with
        nextNode := next
        sources := put c.sources path file
        syntaxProblems := put c.syntaxProblems path [] })
  | .error (.diagnostic d) => return (none, { c with syntaxProblems := put c.syntaxProblems path [d] })
  | .error (.fault f) => throw (.fault f)

/-- A reference to a library that does not exist. -/
def unknownLibrary (path name : String) : Diagnostic :=
  { message := "Cannot find lib definition for '" ++ name ++ "'.", code := some "E2726", phase := some "program",
    span := { file := some path, line := some 1, column := some 1 } }

/-- Reads the libraries of a queue; each one read appends those that it refers to. -/
def readLibraries : (fuel : Nat) → List String → Compilation → Except Failure Compilation
  | 0, _, c => .ok c
  | _, [], c => .ok c
  | fuel + 1, name :: queue, c => do
    let path := libraryPath name
    if c.order.contains path then readLibraries fuel queue c
    else
      let (file, c) ← c.read path
      let names := file.elim [] (·.references)
      let problems := (names.filter (!isLibrary ·)).map (unknownLibrary path)
      readLibraries fuel (queue ++ names.filter isLibrary) { c with libraryProblems := c.libraryProblems ++ problems }

/-- Reads the roots. -/
def readRoots : List String → Compilation → Except Failure Compilation
  | [], c => .ok c
  | root :: rest, c => do
    let (_, c) ← c.read root
    readRoots rest c

/-- The compilation of some roots. -/
def load (roots : List String) (options : Options) (files : Files) : Except Failure Compilation := do
  if roots.isEmpty then throw (.error (.emission "a program needs at least one root file"))
  let textOf (name : String) : String := (files.entries.lookup (libraryPath name)).getD ""
  let names := options.libraries
  let c ← readLibraries (Declarations.queueBound textOf names) names { options, roots, files }
  readRoots roots c

/-- The parsed file at a path. -/
def source? (c : Compilation) (path : String) : Option Source.SourceFile := c.sources.lookup path

/-- The parsed files in the order of reading. -/
def sourceFiles (c : Compilation) : List Source.SourceFile := c.order.filterMap c.source?

def optionDiagnostics (c : Compilation) : List Diagnostic := c.options.diagnostics ++ c.libraryProblems

/-- The diagnostics of parsing one file. -/
def syntaxOf (c : Compilation) (path : String) : List Diagnostic := (c.syntaxProblems.lookup path).getD []

def syntaxDiagnostics (c : Compilation) : List Diagnostic := c.order.flatMap c.syntaxOf

/-- The checker for the parsed files, before it has checked any. -/
def checker (c : Compilation) : Except Failure Typing.State := Failure.ofFault (Typing.start c.sourceFiles)

/-- The diagnostics of all files, in the order of reading. -/
def semanticDiagnostics (c : Compilation) : Typing.Check (List Diagnostic) := do
  return (← c.sourceFiles.mapM Typing.Check.diagnosticsOf).flatten

/-- What is to be said before code is made: about options and syntax, and if the syntax is right about
types. -/
def diagnostics (c : Compilation) : Typing.Check (List Diagnostic) := do
  let early := c.optionDiagnostics ++ c.syntaxDiagnostics
  if !c.syntaxDiagnostics.isEmpty then return early
  let missing ← Typing.Check.globalDiagnostics
  return early ++ missing ++ (← c.semanticDiagnostics)

/-- The libraries among the files read. -/
def libraries (c : Compilation) : List String := c.order.filterMap libraryOfPath?

end Compilation

end Fragment
