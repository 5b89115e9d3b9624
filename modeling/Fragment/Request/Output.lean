import Fragment.Emit.Lower

/-! The output of a compilation: code for each root that is more than declarations. -/
namespace Fragment

/-- What became of the roots of a compilation. -/
structure Output where
  /-- Whether a root could not be parsed, so that the rest was left out. -/
  skipped : Bool := false
  diagnostics : List Diagnostic := []
  /-- The code made, with the paths it goes to. -/
  written : List (String × Target.Module) := []

/-- The paths of all code, if none was left out. -/
def Output.paths (o : Output) : List String := if o.skipped then [] else o.written.map (·.1)

namespace Compilation

/-- Makes the code of some roots behind what was written before. Each text passes through `accept`,
which may refuse it. -/
def emitRoots (c : Compilation) (accept : String → Except CompileError Unit) (typing : Typing.State)
    (written : List (String × Target.Module)) : List String → Except Failure (Output × Typing.State)
  | [] => .ok ({ written }, typing)
  | root :: rest => do
    match c.source? root with
    | none => return ({ skipped := true, diagnostics := c.syntaxOf root, written }, typing)
    | some file =>
      if file.isDeclaration then emitRoots c accept typing written rest
      else
        let (code, typing) ← Emit.emitFile file c.options.module typing
        let path := outputPathOf root
        Failure.ofError (accept path)
        emitRoots c accept typing (written ++ [(path, code)]) rest

/-- The code of all roots. -/
def emit (c : Compilation) (typing : Typing.State) : Except Failure (Output × Typing.State) :=
  c.emitRoots (fun _ => .ok ()) typing [] c.roots

/-- The code of all roots, written to the files of the compilation. -/
def emitToFiles (c : Compilation) (typing : Typing.State) : Except Failure (Output × Typing.State) :=
  c.emitRoots c.files.write typing [] c.roots

end Compilation

end Fragment
