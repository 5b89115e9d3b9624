import Fragment.CompileError
import Fragment.Options

/-! The files that a compilation can see. Any other path, and any write, is refused. -/
namespace Fragment

/-- Texts by path, in the order in which they were given. -/
structure Files where
  entries : List (String × String) := []

namespace Files

/-- Sets the text of a path, in its place if it has one. -/
def setEntry : List (String × String) → String → String → List (String × String)
  | [], path, text => [(path, text)]
  | (p, t) :: rest, path, text => if p = path then (p, text) :: rest else (p, t) :: setEntry rest path text

def insert (f : Files) (path text : String) : Files := ⟨setEntry f.entries path text⟩

/-- The declarations of some libraries and the fragment. -/
def forFragment (source : String) (declarations : Files) : Files := declarations.insert rootPath source

def paths (f : Files) : List String := f.entries.map (·.1)

/-- The text at a path. -/
def read (f : Files) (path : String) : Except CompileError String :=
  match f.entries.lookup path with
  | some text => .ok text
  | none => .error (.emission ("compiler requested unknown path '" ++ path ++ "'"))

/-- Whether a path is there; asking for any other is refused. -/
def exists? (f : Files) (path : String) : Except CompileError Bool := (f.read path).map fun _ => true

/-- Writing is refused. -/
def write (_ : Files) (path : String) : Except CompileError Unit :=
  .error (.emission ("compiler attempted to write '" ++ path ++ "'"))

end Files

end Fragment
