import Fragment.Double.Read
import Fragment.Text.Case

/-! The arguments of a command.
Each argument is classified on its own first; then they are taken from left to right. The options that
take values take arguments that are no options. One other argument may stand anywhere: the path of the
source, unless the source itself is given. -/
namespace Fragment.CommandLine

/-- What a command asks for. -/
structure Arguments where
  /-- The path of the source. -/
  path : Option String := none
  /-- The source itself. -/
  text : Option String := none
  target : Option String := none
  module : Option String := none
  lib : List String := []
  json : Bool := false
  emit : Bool := false
  /-- The arguments to call the fragment with. -/
  call : Option (List String) := none
  logLevel : String := "WARNING"

/-- Why a command ends before it does anything. -/
inductive Stop where
  | usage
  | help
  deriving DecidableEq

/-- The options of a command. -/
inductive Flag where
  | help | eval | target | lib | module | json | emit | call | logLevel
  deriving DecidableEq

namespace Flag

def all : List Flag := [.help, .eval, .target, .lib, .module, .json, .emit, .call, .logLevel]

def long : Flag → String
  | .help => "--help"
  | .eval => "--eval"
  | .target => "--target"
  | .lib => "--lib"
  | .module => "--module"
  | .json => "--json"
  | .emit => "--emit"
  | .call => "--call"
  | .logLevel => "--log-level"

/-- The option that a letter stands for. -/
def ofLetter? : Char → Option Flag
  | 'h' => some .help
  | 'e' => some .eval
  | _ => none

/-- The option spelled in full. -/
def ofName? (name : List Char) : Option Flag :=
  match name with
  | ['-', c] => ofLetter? c
  | name => all.find? fun f => f.long.toList = name

/-- The options whose long names start with the given characters. -/
def startingWith (start : List Char) : List Flag := all.filter fun f => start.isPrefixOf f.long.toList

end Flag

/-- A value in the same argument as its option, behind an equals sign or directly behind a letter. -/
structure Attached where
  marked : Bool
  text : List Char

/-- An argument, classified. -/
inductive Word where
  | operand (text : String)
  /-- The argument after which all arguments are operands. -/
  | separator
  | option (flag : Flag) (isLong : Bool) (value : Option Attached)
  | unknown

/-- Whether the characters are a negative number in plain digits; a line end may follow. -/
def isNegativeNumber (cs : List Char) : Bool :=
  match cs with
  | '-' :: rest =>
    let body := if rest.getLast? = some '\n' then rest.dropLast else rest
    match Double.spanDigits body with
    | (_ :: _, []) => true
    | (_, '.' :: places) => !places.isEmpty && places.all Text.isDecimalDigit
    | _ => false
  | _ => false

/-- Classifies an argument that names no option in full. An option may be shortened as long as only one
starts so. -/
def classifyOther (cs : List Char) : Except Stop Word :=
  let (name, rest) := cs.span (· ≠ '=')
  let value : Option Attached := match rest with
    | _ :: text => some ⟨true, text⟩
    | [] => none
  let other : Word :=
    if isNegativeNumber cs || cs.contains ' ' then .operand (String.ofList cs) else .unknown
  match cs with
  | '-' :: '-' :: _ => match Flag.startingWith name with
    | [flag] => .ok (.option flag true value)
    | [] => .ok other
    | _ => .error .usage
  | '-' :: c :: rest => match Flag.ofLetter? c with
    | some flag => .ok (.option flag false (some ⟨false, rest⟩))
    | none => .ok other
  | _ => .ok (.operand (String.ofList cs))

/-- Classifies an argument. -/
def classify (arg : String) : Except Stop Word :=
  let cs := arg.toList
  if cs.head? ≠ some '-' then .ok (.operand arg)
  else match Flag.ofName? cs with
    | some flag => .ok (.option flag (cs.length ≠ 2) none)
    | none =>
      let (name, rest) := cs.span (· ≠ '=')
      match Flag.ofName? name, rest with
      | some flag, _ :: text => .ok (.option flag (name.length ≠ 2) (some ⟨true, text⟩))
      | _, _ => if cs = ['-'] then .ok (.operand arg) else classifyOther cs

/-- The arguments, classified. -/
def words : List String → Except Stop (List Word)
  | [] => .ok []
  | "--" :: rest => .ok (.separator :: rest.map .operand)
  | arg :: rest => do
    let word ← classify arg
    return word :: (← words rest)

/-- What the next operand is for. -/
inductive Pending where
  /-- Nothing in particular. -/
  | free
  /-- It is the value of an option. -/
  | value (flag : Flag)
  /-- It is one more argument to call the fragment with. -/
  | callArguments (before : List String)
  /-- It is a value, but help is asked for before it is looked at. -/
  | help

/-- Where the path of the source may still stand. -/
inductive PathPlace where
  /-- Anywhere. -/
  | anywhere
  /-- In the next argument. -/
  | next
  /-- It stood in the last argument, where a separator may follow. -/
  | last
  /-- Nowhere. -/
  | nowhere
  deriving DecidableEq

/-- The arguments read so far. -/
structure Reading where
  arguments : Arguments := {}
  pending : Pending := .free
  place : PathPlace := .anywhere
  /-- Whether an argument was found that has no meaning. -/
  excess : Bool := false

namespace Reading

/-- Gives an option its value. The source is given once only. -/
def setValue (r : Reading) (flag : Flag) (text : String) : Except Stop Reading :=
  let a := r.arguments
  let keep (a : Arguments) : Except Stop Reading := .ok { r with arguments := a, pending := .free }
  match flag with
  | .eval => if a.path.isSome then .error .usage else keep { a with text := some text }
  | .target => keep { a with target := some text }
  | .lib => keep { a with lib := a.lib ++ [text] }
  | .module => keep { a with module := some text }
  | .logLevel => keep { a with logLevel := text }
  | .call => keep { a with call := some [text] }
  | .help | .json | .emit => .error .usage

/-- Takes an operand that belongs to no option. -/
def setPath (r : Reading) (text : String) : Except Stop Reading :=
  match r.place with
  | .anywhere | .next =>
    if r.arguments.text.isSome then .error .usage
    else
      let place := if r.place = .next then .nowhere else .last
      .ok { r with arguments := { r.arguments with path := some text }, place }
  | .last | .nowhere => .ok { r with excess := true, place := .nowhere }

/-- Takes the letters behind the letter of help. They ask for help whatever they are, as long as they
can be letters of options and their values. -/
def takeLetters (r : Reading) : List Char → Except Stop Reading
  | [] => .error .usage
  | '-' :: _ => .error .usage
  | ['e'] => .ok { r with pending := .help }
  | ['h'] => .error .help
  | 'h' :: '=' :: _ => .error .usage
  | 'h' :: rest => takeLetters r rest
  | _ => .error .help

/-- Takes an option. -/
def takeOption (r : Reading) (flag : Flag) (isLong : Bool) : Option Attached → Except Stop Reading
  | some v =>
    match flag with
    | .help => if isLong || v.marked then .error .usage else r.takeLetters v.text
    | flag => r.setValue flag (String.ofList v.text)
  | none =>
    match flag with
    | .help => .error .help
    | .json => .ok { r with arguments := { r.arguments with json := true } }
    | .emit => .ok { r with arguments := { r.arguments with emit := true } }
    | .call => .ok { r with pending := .callArguments [] }
    | flag => .ok { r with pending := .value flag }

/-- Ends the arguments of an option before something that is no operand. -/
def close (r : Reading) : Except Stop Reading :=
  match r.pending with
  | .free => .ok r
  | .value _ | .help => .error .usage
  | .callArguments texts => .ok { r with arguments := { r.arguments with call := some texts }, pending := .free }

/-- The path cannot be followed by a separator any more. -/
def leavePath (r : Reading) : Reading :=
  { r with place := if r.place = .last then .nowhere else r.place }

/-- Takes one word. -/
def take (r : Reading) : Word → Except Stop Reading
  | .operand text =>
    match r.pending with
    | .free => r.setPath text
    | .value flag => r.setValue flag text
    | .callArguments before => .ok { r with pending := .callArguments (before ++ [text]) }
    | .help => .error .help
  | .separator => do
    let r ← r.close
    match r.place with
    | .anywhere => return { r with place := .next }
    | .last => return { r with place := .nowhere }
    | .next | .nowhere => return { r with excess := true }
  | .option flag isLong value => do (← r.close).leavePath.takeOption flag isLong value
  | .unknown => return { (← r.close).leavePath with excess := true }

end Reading

/-- The arguments of a command. Exactly one source has to be given. -/
def Arguments.read (args : List String) : Except Stop Arguments := do
  let r ← (← words args).foldlM Reading.take {}
  let r ← r.close
  if r.excess || (r.arguments.path.isNone && r.arguments.text.isNone) then throw .usage
  return r.arguments

/-- The levels of messages that can be asked for. -/
def logLevels : List String := ["CRITICAL", "FATAL", "ERROR", "WARNING", "WARN", "INFO", "DEBUG", "NOTSET"]

/-- Refuses an unknown level of messages. -/
def Arguments.checkLevel (a : Arguments) : Except Fault Unit :=
  if logLevels.contains (Text.upper a.logLevel) then .ok ()
  else .error (.argument ("unknown log level " ++ Text.quoted a.logLevel))

end Fragment.CommandLine
