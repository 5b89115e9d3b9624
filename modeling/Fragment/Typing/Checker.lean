import Fragment.Typing.Print
import Fragment.Typing.Statement
import Fragment.Typing.SymbolType

/-! The checker as a whole: its parts answer one another, and files are checked on demand. -/
namespace Fragment.Typing

open Fragment.Source (SourceFile)

/-- A level whose questions are answered by the level below. -/
def Queries.step (q : Queries) : Queries where
  typeOfSymbol := q.computeSymbolType
  declaredType := q.computeDeclared
  typeOfNode := q.annotation
  instantiate := q.computeInstance
  members := q.computeMembers
  property := q.computeProperty
  resultOf := q.computeResult
  relate := q.computeRelated
  typeOfExpr := q.computeExprType
  write := q.computeText
  apparent := q.computeApparent
  awaited := q.computeAwaited

/-- The answers that need at most a number of levels. -/
def Queries.ofDepth : Nat → Queries
  | 0 => .bottom
  | depth + 1 => (Queries.ofDepth depth).step

/-- How many questions can be open at a time. -/
def depthLimit : Nat := 1000

/-- The answers that the checker gives. -/
def answers : Queries := .ofDepth depthLimit

/-- Bounds how many function bodies can wait one after the other. -/
def bodyLimit : Nat := Nat.pow 10 9

namespace Check

/-- Checks a file, once. -/
def checkFile (f : SourceFile) : Check Unit := do
  if (← get).checkedFiles.contains f.name then return
  modify fun s => { s with checkedFiles := f.name :: s.checkedFiles }
  answers.checkStatements f.statements
  answers.checkDeferred bodyLimit

/-- The diagnostics of a file, in the order of their places. -/
def diagnosticsOf (f : SourceFile) : Check (List Diagnostic) := do
  checkFile f
  return Diagnostic.sort ((← get).diagnostics.getD f.name [])

/-- The global types that members of primitive values come from. -/
def primitiveInterfaces : List String := ["String", "Number", "Boolean"]

/-- The diagnostics that belong to no file: global types that are missing. -/
def globalDiagnostics : Check (List Diagnostic) := do
  let missing ← primitiveInterfaces.filterM fun name => return (← answers.globalType name 0).isNone
  return missing.map fun name =>
    let m := Message.cannotFindGlobalType name
    { message := m.text, code := some m.code, phase := some "typecheck" }

/-- The type of an expression of a file that has been checked. -/
def typeOfExpr (e : Source.Expr) : Check TypeId := answers.typeOfExpr e none

/-- The type of what is declared at a node, if something is. -/
def typeOfDeclaration? (mark : Source.Mark) : Check (Option TypeId) := do
  match (← get).symbolOf[mark.id]? with
  | some x => return some (← answers.typeOfSymbol x)
  | none => return none

/-- The symbol that a node means or declares. -/
def symbolAt? (mark : Source.Mark) : Check (Option SymbolId) := do
  let s ← get
  return (s.resolvedSymbols[mark.id]?).or s.symbolOf[mark.id]?

end Check

/-- Declares the names of some files. -/
def start (files : List SourceFile) : Except Fault State := do
  let ((), s) ← (files.forM bindFile).run State.initial
  return s

end Fragment.Typing
