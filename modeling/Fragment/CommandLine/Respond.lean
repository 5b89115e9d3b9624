import Fragment.CommandLine.Arguments
import Fragment.Data.Json
import Fragment.Request.Compile

/-! What a command answers.
A failure is a list of diagnostics, on the error channel as lines or on the output as a document. A
success is a payload: the generated code, the description of the fragment, or the result of a call. -/
namespace Fragment.CommandLine

/-- What a command leaves behind. -/
structure Response where
  exitCode : Nat := 0
  output : String := ""
  errors : String := ""

/-- A diagnostic as data. -/
def diagnosticData (d : Diagnostic) : Data :=
  let text (t : Option String) : Data := t.elim .null .text
  let number (n : Option Int) : Data := n.elim .null fun n => .number (.int n)
  .record [("phase", text d.phase), ("message", .text d.message), ("severity", .text d.severity),
    ("code", text d.code), ("file", text d.span.file), ("line", number d.span.line),
    ("column", number d.span.column), ("notes", .list (d.notes.map .text))]

/-- A description as data. -/
def descriptionData (d : Description) : Data :=
  .record [
    ("parameters", .list (d.parameters.map fun p =>
      .record [("name", .text p.name), ("kind", .text p.kind.name)])),
    ("resultShape", .record (d.result.map fun (name, kind) => (name, .text kind.name)))]

/-- Reports a failure behind what was printed before. -/
def report (asJson : Bool) (printed : String) (ds : List Diagnostic) : Except Fault Response := do
  if asJson then
    let document ← (Data.record [("exit_code", .number (.int 1)),
      ("diagnostics", .list (ds.map diagnosticData))]).json .line
    return { exitCode := 1, output := printed ++ document ++ "\n" }
  return { exitCode := 1, output := printed, errors := String.join (ds.map fun d => d.render ++ "\n") }

/-- Shows a payload behind what was printed before. A text is shown as it is. -/
def succeed (asJson : Bool) (printed : String) (payload : Data) : Except Fault Response := do
  if asJson then
    let document ← (Data.record [("exit_code", .number (.int 0)), ("diagnostics", .list []),
      ("result", payload)]).json .line
    return { output := printed ++ document ++ "\n" }
  match payload with
  | .text t => return { output := printed ++ t }
  | payload => return { output := printed ++ (← payload.json .indented) ++ "\n" }

/-- The diagnostics that stand for a failed compilation. -/
def errorDiagnostics (e : CompileError) : List Diagnostic :=
  match e with
  | .diagnostics ds => ds
  | .structural _ _ span =>
    let span : Span := if span.file.isSome then span else ⟨some rootPath, span.line, span.column, none, none⟩
    [{ message := e.message, phase := some e.kind, span }]
  | e => [{ message := e.message, phase := some e.kind, span := { file := some rootPath } }]

/-- A problem of the command itself. -/
def commandProblem (message : String) (file : String) : Diagnostic :=
  { message, phase := some "driver", span := { file := some file } }

/-- Reports a failed compilation; a fault is no report. -/
def reportFailure (asJson : Bool) (printed : String) : Failure → Except Fault Response
  | .error e => report asJson printed (errorDiagnostics e)
  | .fault f => .error f

/-- The argument of a call that a text stands for. -/
def argumentOf (text : String) : ParameterKind → Except Fault Value
  | .textual => .ok (.text text)
  | .numeric => match Double.ofText? text with
    | some x => .ok (.number (Number.normalize (.float x)))
    | none => .error (.argument ("'" ++ text ++ "' is not a number"))

/-- The arguments of a call, one for each parameter. -/
def argumentsOf (parameters : List Parameter) (texts : List String) : Except Fault (List Value) := do
  if texts.length ≠ parameters.length then
    let expected := parameters.length
    let given := texts.length
    throw (.argument s!"expected {expected} argument(s), got {given}")
  (texts.zip parameters).mapM fun (text, p) => argumentOf text p.kind

/-- Calls a compiled fragment. A value that something refuses is reported, any other fault is not. -/
def respondCall (asJson : Bool) (c : Request.Compiled) (texts : List String) : Except Fault Response :=
  let refuse (message : String) (w : Target.World) : Except Fault Response :=
    report asJson w.output [commandProblem message rootPath]
  let act : Target.Run Value := do
    Target.callFromOutside c.callable (← Target.Run.lift (argumentsOf c.description.parameters texts))
  match act.run c.world with
  | .ok v w => do succeed asJson w.output (← v.toData w.store)
  | .error (.argument message) w => refuse message w
  | .error (.value message) w => refuse message w
  | .error f _ => .error f

/-- The options that a command names. -/
def Arguments.options (a : Arguments) : Options :=
  let entry (key : String) (value : Option String) : List (String × Data) :=
    value.elim [] fun v => [(key, .text v)]
  let libs : List (String × Data) := if a.lib.isEmpty then [] else [("lib", .list (a.lib.map .text))]
  Options.ofEntries (entry "module" a.module ++ entry "target" a.target ++ libs)

/-- Answers a command whose source has been read. -/
def Arguments.respondSource (a : Arguments) (source : String) : Except Fault Response :=
  let options := a.options
  let declarations := Declarations.load options
  let fail := reportFailure a.json
  if a.emit then
    match Request.compile source options declarations with
    | .ok code => succeed a.json "" (.text code.render)
    | .error f => fail "" f
  else match Request.prepare source options declarations with
    | .error f => fail "" f
    | .ok p => match Request.evaluate p.code p.libraries {} with
      | .error f => fail "" f
      | .ok (v, world) => match p.complete v world with
        | .error f => fail world.output f
        | .ok c => match a.call with
          | none => succeed a.json world.output (descriptionData c.description)
          | some texts => respondCall a.json c texts

/-- The path in its shortest spelling: without empty parts and parts that stay in place. Two slashes at
the start are kept, more are one. -/
def pathText (path : String) : String :=
  let cs := path.toList
  let slashes := (cs.takeWhile (· = '/')).length
  let root := if slashes = 0 then "" else if slashes = 2 then "//" else "/"
  let parts := ((Text.splitOn ['/'] cs).map String.ofList).filter fun part => part ≠ "" && part ≠ "."
  let text := root ++ String.intercalate "/" parts
  if text = "" then "." else text

/-- The text of a file with a line feed at the end of each line. -/
def unifyLines (text : String) : String :=
  let crlf := Text.replaceAll ['\r', '\n'] ['\n'] text.toList
  String.ofList (crlf.map fun c => if c = '\r' then '\n' else c)

/-- Answers a command, given the content of the file at its path or the reason why there is none. -/
def Arguments.respond (a : Arguments) (file : Except String String) : Except Fault Response := do
  a.checkLevel
  match a.text with
  | some text => a.respondSource text
  | none =>
    if (a.path.getD "").contains '\x00' then throw (.value "embedded null byte")
    match file with
    | .ok content => a.respondSource (unifyLines content)
    | .error reason =>
      report a.json "" [commandProblem ("cannot read source: " ++ reason) (pathText (a.path.getD ""))]

end Fragment.CommandLine
