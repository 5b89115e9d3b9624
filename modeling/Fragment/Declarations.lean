import Fragment.Files
import Fragment.Library
import Fragment.Source.References

/-! The declaration files that options bring into scope, and a cache of them.
Loading starts from the libraries that the options name and follows references, nearest first. -/
namespace Fragment.Declarations

/-- Loads the libraries of a queue behind the files already loaded; each loaded library appends the
known libraries that it refers to. -/
def loadQueue (textOf : String → String) : Nat → List String → Files → Files
  | 0, _, files => files
  | _, [], files => files
  | fuel + 1, name :: queue, files =>
    let path := libraryPath name
    if files.paths.contains path then loadQueue textOf fuel queue files
    else
      let text := textOf name
      loadQueue textOf fuel (queue ++ (Source.references text).filter isLibrary)
        ⟨files.entries ++ [(path, text)]⟩

/-- Bounds how many names a queue can ever hold: the first ones, and the references of each library
once. -/
def queueBound (textOf : String → String) (names : List String) : Nat :=
  libraryNames.foldl (fun total n => total + (Source.references (textOf n)).length) names.length

/-- The files of some libraries and of all that they refer to. -/
def loadWith (textOf : String → String) (names : List String) : Files :=
  loadQueue textOf (queueBound textOf names) names {}

/-- The bundled files that some options need. -/
def load (o : Options) : Files := loadWith (fun n => (Library.text? n).getD "") o.libraries

/-- What loaded declarations are stored under. -/
abbrev Key := List String

/-- Declarations that have been loaded, and loads that are under way on each event loop. -/
structure Cache where
  values : List (Key × Files) := []
  inFlight : List (Key × Nat) := []

/-- What a request finds. -/
inductive Request where
  /-- The files are there. -/
  | hit (files : Files)
  /-- A load is under way on this event loop: wait for it. -/
  | join
  /-- A load has to be started. -/
  | start

namespace Cache

def get? (c : Cache) (key : Key) : Option Files := c.values.lookup key

/-- Asks for files on an event loop; a load that has to be started is then under way. -/
def request (c : Cache) (key : Key) (eventLoop : Nat) : Request × Cache :=
  match c.get? key with
  | some files => (.hit files, c)
  | none =>
    if c.inFlight.contains (key, eventLoop) then (.join, c)
    else (.start, { c with inFlight := (key, eventLoop) :: c.inFlight })

/-- Publishes loaded files; what was published before stays. -/
def publish (c : Cache) (key : Key) (files : Files) : Cache :=
  match c.get? key with
  | some _ => c
  | none => { c with values := c.values ++ [(key, files)] }

/-- A load has ended, with or without files. -/
def finish (c : Cache) (key : Key) (eventLoop : Nat) : Cache :=
  { c with inFlight := c.inFlight.erase (key, eventLoop) }

/-- The end of a load that gave files. -/
def complete (c : Cache) (key : Key) (eventLoop : Nat) (files : Files) : Cache :=
  (c.publish key files).finish key eventLoop

def keys (c : Cache) : List Key := c.values.map (·.1)

end Cache

end Fragment.Declarations
