import Fragment.Data
import Fragment.Diagnostic
import Fragment.Text.Case

/-! Compilation options: the shape of the output and the libraries in scope. -/
namespace Fragment

/-- The shape of the output: statements at the top, or a function that holds them. -/
inductive ModuleKind where
  | script
  | closure
  deriving DecidableEq

namespace ModuleKind

def all : List ModuleKind := [.script, .closure]

def name : ModuleKind → String
  | .script => "script"
  | .closure => "closure"

end ModuleKind

/-- The generation of the language that library declarations are chosen for. -/
inductive Target where
  | es5 | es2015 | es2017 | es2019 | es2021 | esnext
  deriving DecidableEq

namespace Target

def all : List Target := [.es5, .es2015, .es2017, .es2019, .es2021, .esnext]

def name : Target → String
  | .es5 => "es5"
  | .es2015 => "es2015"
  | .es2017 => "es2017"
  | .es2019 => "es2019"
  | .es2021 => "es2021"
  | .esnext => "esnext"

end Target

/-- The names of the bundled libraries. -/
def libraryNames : List String := ["es5", "es2015", "es2017", "es2019", "es2021", "esnext", "dom", "host"]

def isLibrary (name : String) : Bool := libraryNames.contains name

/-- Where the declarations of a library stand. -/
def libraryPath (name : String) : String := "/lib/lib." ++ name ++ ".d.ts"

/-- The library whose declarations stand at a path. -/
def libraryOfPath? (path : String) : Option String := libraryNames.find? fun n => libraryPath n = path

/-- The path of the fragment. -/
def rootPath : String := "/fragment.ts"

/-- The path of the code made of the fragment. -/
def outputPath : String := "/fragment.py"

/-- The path of the code made of a file: `.ts` at its end gives way to `.py`. -/
def outputPathOf (path : String) : String :=
  if path.endsWith ".ts" then String.ofList (path.toList.take (path.length - 3)) ++ ".py" else path ++ ".py"

/-- Compilation options, with the diagnostics of their reading. -/
structure Options where
  module : ModuleKind := .script
  target : Target := .es2017
  lib : Option (List String) := none
  diagnostics : List Diagnostic := []

namespace Options

/-- The libraries that the options ask for. -/
def libraries (o : Options) : List String := o.lib.getD [o.target.name, "dom"]

/-- What the declarations in scope depend on. -/
def declarationKey (o : Options) : List String := o.libraries

/-- The member of a list that a value names, in letters of any case. -/
def choose? {α : Type} (all : List α) (name : α → String) (value : Data) : Option α :=
  match value with
  | .text t => all.find? fun a => name a = Text.lower t
  | _ => none

def problem (code message : String) : Diagnostic := { message, code := some code, phase := some "options" }

/-- The names between quotes, separated by commas. -/
def listed (names : List String) : String := String.intercalate ", " (names.map fun n => "'" ++ n ++ "'")

/-- A value that is not among those allowed. -/
def notAllowed (key : String) (allowed : List String) : Diagnostic :=
  problem "E6046" ("Argument for '--" ++ key ++ "' option must be: " ++ listed allowed ++ ".")

/-- Takes in one entry; a bad one is reported and leaves the default. -/
def addEntry (o : Options) (key : String) (value : Data) : Options :=
  let report (d : Diagnostic) : Options := { o with diagnostics := o.diagnostics ++ [d] }
  match key with
  | "module" => match choose? ModuleKind.all ModuleKind.name value with
    | some m => { o with module := m }
    | none => report (notAllowed key (ModuleKind.all.map ModuleKind.name))
  | "target" => match choose? Target.all Target.name value with
    | some t => { o with target := t }
    | none => report (notAllowed key (Target.all.map Target.name))
  | "lib" => match value with
    | .list items =>
      let names := items.map fun item => Text.lower item.plain
      { o with
        lib := some (names.filter isLibrary)
        diagnostics := o.diagnostics ++
          (names.filter (!isLibrary ·)).map fun _ => notAllowed key libraryNames }
    | _ => report (problem "E5024" "Compiler option 'lib' requires a value of type list.")
  | _ => report (problem "E5023" ("Unknown compiler option '" ++ key ++ "'."))

/-- The options of some entries, in their order. -/
def ofEntries (entries : List (String × Data)) : Options :=
  entries.foldl (fun o (key, value) => o.addEntry key value) {}

/-- The options of some entries, all of which have to be right. -/
def ofEntriesStrict (entries : List (String × Data)) : Except Fault Options := do
  if entries.any fun (key, _) => ! ["module", "target", "lib", "diagnostics"].contains key then throw .kind
  let pick {α : Type} (key kind : String) (all : List α) (name : α → String) (default : α) : Except Fault α :=
    match entries.lookup key with
    | none => .ok default
    | some value => match choose? all name value with
      | some a => .ok a
      | none => .error (.argument ("invalid value for " ++ kind ++ ": " ++ value.shown))
  let module ← pick "module" "ModuleKind" ModuleKind.all ModuleKind.name .script
  let target ← pick "target" "ScriptTarget" Target.all Target.name .es2017
  let items ← match (entries.lookup "lib").getD .null with
    | .null => pure none
    | .text _ => throw (.argument "lib must be a sequence of library names")
    | .list items => pure (some items)
    | .record fields => pure (some (fields.map fun (key, _) => .text key))
    | _ => throw .kind
  let names := items.map fun items => items.map fun item => Text.lower item.plain
  match (names.getD []).find? (!isLibrary ·) with
  | some unknown => throw (.argument ("unknown library: " ++ Text.quoted unknown))
  | none => return { module, target, lib := names }

end Options

end Fragment
