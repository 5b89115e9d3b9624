import Fragment.Request.Description
import Fragment.Request.Output
import Fragment.Request.Structure
import Fragment.Target.Legality
import Fragment.Target.Machine

/-! Compiling a fragment.
The fragment has to be one expression without diagnostics. Its description is read before its code is
made, and the code runs only if the description was accepted. -/
namespace Fragment.Request

/-- A compilation of the fragment, checked as far as it had to be. -/
structure Session where
  compilation : Compilation
  typing : Typing.State

/-- Asks the checker of a session. -/
def Session.ask {α : Type} (s : Session) (question : Typing.Check α) : Except Failure (α × Session) := do
  let (a, typing) ← Failure.ofFault (question.run s.typing)
  return (a, { s with typing })

/-- Opens a session on some roots. -/
def start (roots : List String) (options : Options) (files : Files) : Except Failure Session := do
  let compilation ← Compilation.load roots options files
  return { compilation, typing := ← compilation.checker }

/-- The expression of the fragment, if nothing is wrong with it. The structure is looked at first. -/
def acceptedExpr (s : Session) : Except Failure (Source.Expr × Session) := do
  let root := s.compilation.source? rootPath
  match root with
  | some file => discard <| Failure.ofError (fragmentExpr file)
  | none => pure ()
  let (diagnostics, s) ← s.ask s.compilation.diagnostics
  if !diagnostics.isEmpty then throw (.error (.diagnostics diagnostics))
  match root with
  | none => throw (.error (.emission "root file has no syntax tree but reported no diagnostics"))
  | some file => return (← Failure.ofError (fragmentExpr file), s)

/-- The one module that a fragment gives. -/
def singleModule (s : Session) : Except Failure (Target.Module × Session) := do
  let (output, typing) ← s.compilation.emit s.typing
  discard <| Failure.ofError (singleOutput output.skipped (output.written.map fun (path, m) => (path, m.render)))
  match output.written with
  | [(_, code)] => return (code, { s with typing })
  | _ => throw (.error (.emission "emit was skipped"))

/-- Opens a session on the fragment. -/
def openFragment (source : String) (options : Options) (declarations : Files) : Except Failure Session :=
  start [rootPath] options (Files.forFragment source declarations)

/-- The code of a fragment that has the right structure and no diagnostics. -/
def compile (source : String) (options : Options) (declarations : Files) : Except Failure Target.Module := do
  let (_, s) ← acceptedExpr (← openFragment source options declarations)
  return (← singleModule s).1

/-- Refuses code that breaks a rule of the output language. -/
def checkLegal (m : Target.Module) : Except Failure Unit :=
  match m.violation? with
  | none => .ok ()
  | some v =>
    let line := v.line
    .error (.error (.emission ("generated code does not compile: " ++ v.message ++ s!" (line {line})")))

/-- Runs code with the bindings of some libraries; gives its completion value and the world after it. -/
def evaluate (m : Target.Module) (libraries : List String) (world : Target.World) :
    Except Failure (Value × Target.World) := do
  checkLegal m
  match (m.run libraries).run world with
  | .ok v world => return (v, world)
  | .error f _ => throw (.fault f)

/-- What a value that cannot be called is, in messages. -/
def Value.kindText : Value → String
  | .undefined => "NoneType"
  | .bool _ => "bool"
  | .number (.int _) => "int"
  | .number (.float _) => "float"
  | .text _ => "str"
  | .array _ => "list"
  | .object _ => "dict"
  | .function _ => "function"
  | .promise _ => "coroutine"

/-- A compiled fragment: what to call, what it takes and gives, and the world that its code runs in. -/
structure Compiled where
  callable : Value
  description : Description
  world : Target.World

/-- A fragment whose description was accepted and whose code has not run yet. -/
structure Prepared where
  description : Description
  code : Target.Module
  libraries : List String

/-- Checks and describes a fragment, and makes its code. -/
def prepare (source : String) (options : Options) (declarations : Files) : Except Failure Prepared := do
  let (e, s) ← acceptedExpr (← openFragment source options declarations)
  let (description, s) ← s.ask (Description.ofExpr e).run
  let description ← Failure.ofError description
  let (code, s) ← singleModule s
  return { description, code, libraries := s.compilation.libraries }

/-- The compiled fragment, after its code gave a value, which has to be a function. -/
def Prepared.complete (p : Prepared) (callable : Value) (world : Target.World) : Except Failure Compiled :=
  match callable with
  | .function _ => .ok { callable, description := p.description, world }
  | v => .error (.error (.emission ("fragment evaluated to a non-callable " ++ Value.kindText v)))

/-- Compiles a fragment and runs its code. -/
def compileFragment (source : String) (options : Options) (declarations : Files) (world : Target.World) :
    Except Failure Compiled := do
  let p ← prepare source options declarations
  let (callable, world) ← evaluate p.code p.libraries world
  p.complete callable world

end Fragment.Request
