import Fragment.CommandLine.Respond

/-! The command: reads the source, answers, and leaves with the exit code of the answer. -/
namespace Fragment.CommandLine

/-- How the command is used. -/
def usage : String :=
  "usage: fragc [-h] [-e TEXT] [--target TARGET] [--lib LIB] [--module MODULE] [--json] [--emit]\n" ++
  "             [--call [ARG ...]] [--log-level LOG_LEVEL] [source]\n"

/-- The reason why a file could not be read. -/
def readProblem : IO.Error → String
  | .noFileOrDirectory .. => "No such file or directory"
  | .permissionDenied .. => "Permission denied"
  | .inappropriateType .. => "Is a directory"
  | e => toString e

/-- The content of the file that a command names. -/
def readFile (path : Option String) : IO (Except String String) := do
  match path with
  | none => return .error ""
  | some path =>
    try return .ok (← IO.FS.readFile (pathText path))
    catch e => return .error (readProblem e)

/-- The last line of a command that ended in a fault. -/
def faultText : Fault → String
  | .argument message | .member message | .value message => message
  | .library name => "no runtime bindings for library " ++ Text.quoted name
  | _ => "the fragment failed"

/-- Runs a command and gives its exit code. -/
def run (args : List String) : IO UInt32 := do
  match Arguments.read args with
  | .error .help =>
    IO.print usage
    return 0
  | .error .usage =>
    IO.eprint usage
    return 2
  | .ok a =>
    match a.respond (← readFile a.path) with
    | .ok r =>
      IO.print r.output
      IO.eprint r.errors
      return r.exitCode.toUInt32
    | .error f =>
      IO.eprintln (faultText f)
      return 1

end Fragment.CommandLine

/-- The command. -/
def main (args : List String) : IO UInt32 := Fragment.CommandLine.run args
