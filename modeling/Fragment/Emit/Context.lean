import Fragment.Compilation
import Fragment.Emit.Names
import Fragment.Target.Text

/-! What is known while code is made, and the steps that read and change it. -/
namespace Fragment.Emit

open Fragment.Source (Mark)
open Fragment.Typing (SymbolId TypeId TypeFlags SymbolFlags Check)

/-- What stays the same while a function is made. -/
structure Context where
  kind : ModuleKind
  /-- The symbols that only libraries declare, with their names. -/
  librarySymbols : List (String × SymbolId)
  /-- The symbols that the file declares outside of functions. -/
  moduleSymbols : List SymbolId
  /-- Whether the function around is async. -/
  isAsync : Bool := false

/-- The name of a symbol that only libraries declare. -/
def Context.libraryName? (c : Context) (x : SymbolId) : Option String :=
  (c.librarySymbols.find? (·.2 = x)).map (·.1)

/-- What changes: what the checker knows, the names in use and the statements made so far. -/
structure Progress where
  typing : Typing.State
  names : Names
  made : Array Target.Stmt := #[]

/-- A step of making code. -/
abbrev Lowering := ReaderT Context (StateT Progress (Except Failure))

namespace Lowering

def refuse {α : Type} (message : String) : Lowering α := throw (.error (.emission message))

/-- Asks the checker. -/
def ask {α : Type} (question : Check α) : Lowering α := do
  match question.run (← get).typing with
  | .ok (a, typing) =>
    modify fun p => { p with typing }
    return a
  | .error f => throw (.fault f)

/-- Adds a statement. -/
def push (s : Target.Stmt) : Lowering Unit := modify fun p => { p with made := p.made.push s }

/-- The statements that a step adds, apart from those made before. -/
def collected (act : Lowering Unit) : Lowering (List Target.Stmt) := do
  let before := (← get).made
  modify fun p => { p with made := #[] }
  act
  let inside := (← get).made
  modify fun p => { p with made := before }
  return inside.toList

/-- The statements of a branch or body, which cannot be empty. -/
def suite (act : Lowering Unit) : Lowering (List Target.Stmt) := do
  match (← collected act) with
  | [] => return [.pass]
  | body => return body

/-- The name of a symbol: libraries keep theirs. -/
def nameOf (x : SymbolId) : Lowering String := do
  match (← read).libraryName? x with
  | some name => return name
  | none =>
    let s ← ask (Check.symbol x)
    match (← get).names.forSymbol x s.name with
    | some (name, names) =>
      modify fun p => { p with names }
      return name
    | none => throw (.fault .exhausted)

/-- A new temporary. -/
def temporary (kind : Temporary) : Lowering String := do
  let (name, names) := (← get).names.temporary kind.label
  modify fun p => { p with names }
  return name

/-- The symbol declared at a node. -/
def declaredSymbol? (mark : Mark) : Lowering (Option SymbolId) := return (← get).typing.symbolOf[mark.id]?

/-- The symbols declared at some nodes. -/
def declaredSymbols (marks : List Mark) : Lowering (List SymbolId) := marks.filterMapM declaredSymbol?

def typeOf (e : Source.Expr) : Lowering TypeId := ask (Check.typeOfExpr e)

/-- Whether each part of a type has one of some flags. -/
def allParts (t : TypeId) (mask : TypeFlags) : Lowering Bool := ask (Check.allParts t mask)

/-- Whether a type is an array type. -/
def isArray (t : TypeId) : Lowering Bool := do
  match (← ask (Check.form t)) with
  | .array _ => return true
  | _ => return false

/-- Whether each part of a type is an object type and no array. -/
def isPlainObject (t : TypeId) : Lowering Bool := do
  let s := (← get).typing
  return (s.parts t).all fun p =>
    let info := s.typeInfo p
    info.flags.meets TypeFlags.object && (match info.form with
      | .array _ => false
      | _ => true)

/-- Whether an access reads a property that is always there. -/
def readsRequired (mark : Mark) : Lowering Bool := do
  match (← ask (Check.symbolAt? mark)) with
  | some x => return !(← ask (Check.symbol x)).isOptional
  | none => return false

end Lowering

/-- The symbols with a value that only libraries declare, with their names. -/
def librarySymbols (s : Typing.State) : List (String × SymbolId) :=
  let globals := (s.scopes[Typing.globalScope]?).elim [] (·.names.toList)
  globals.filter fun (_, x) =>
    let symbol := s.symbol x
    x ≠ Typing.undefinedSymbol && symbol.flags.meets SymbolFlags.value && !symbol.declarations.isEmpty &&
      symbol.declarations.all fun d => (s.fileOf[d.mark.id]?).any Source.isDeclarationName

end Fragment.Emit
