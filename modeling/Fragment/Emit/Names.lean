import Fragment.Target.Code

/-! Names of generated code.
Each symbol gets a name of its own that no other symbol, library or temporary has. Names with two
leading underscores are for temporaries and for the code itself. -/
namespace Fragment.Emit

/-- The words of the output language that cannot be names. -/
def reservedWords : List String := [
  "False", "None", "True", "and", "as", "assert", "async", "await", "break", "class", "continue",
  "def", "del", "elif", "else", "except", "finally", "for", "from", "global", "if", "import", "in",
  "is", "lambda", "nonlocal", "not", "or", "pass", "raise", "return", "try", "while", "with", "yield"]

/-- Names begun with this are kept for the code itself. -/
def startsWithUnderscores (name : String) : Bool := "__".toList.isPrefixOf name.toList

/-- A name without characters that the output language does not allow. -/
def plainName (name : String) : String :=
  String.ofList (name.toList.flatMap fun c => if c = '$' then "_dollar_".toList else [c])

/-- The first choice for a name. -/
def baseName (name : String) : String :=
  let plain := plainName name
  if startsWithUnderscores plain then "u" ++ plain else plain

/-- The choices for a name: the base itself, then the base with a number. -/
def candidate (base : String) (k : Nat) : String := if k = 0 then base else base ++ "_" ++ toString k

/-- The kinds of temporaries. -/
inductive Temporary where
  | function
  | value
  deriving DecidableEq

def Temporary.label : Temporary → String
  | .function => "fn_"
  | .value => "t"

def temporaryName (label : String) (k : Nat) : String := "__" ++ label ++ toString k

/-- The names in use. -/
structure Names where
  used : List String
  /-- The names given to symbols. -/
  symbols : List (Nat × String) := []
  /-- The numbers of the last temporaries, by label. -/
  counters : List (String × Nat) := []

namespace Names

/-- The names in use before any has been given. -/
def start (libraryNames : List String) : Names :=
  { used := [Target.helpersName, Target.completionName, Target.moduleName] ++ libraryNames }

def isFree (n : Names) (name : String) : Bool :=
  !n.used.contains name && !reservedWords.contains name && !startsWithUnderscores name

/-- The first free choice among some, from the `k`-th on. -/
def freeFrom (n : Names) (base : String) : (fuel : Nat) → Nat → Option String
  | 0, _ => none
  | fuel + 1, k =>
    if n.isFree (candidate base k) then some (candidate base k) else n.freeFrom base fuel (k + 1)

/-- The name of a symbol, given to it when it is first asked for. There is none if no choice will ever
be free. One more choice than there are names in use, and one for a reserved word, are enough. -/
def forSymbol (n : Names) (symbol : Nat) (name : String) : Option (String × Names) :=
  match n.symbols.lookup symbol with
  | some known => some (known, n)
  | none => (n.freeFrom (baseName name) (n.used.length + 2) 0).map fun free =>
    (free, { n with used := free :: n.used, symbols := (symbol, free) :: n.symbols })

/-- The first number from `k` on whose temporary is not in use. -/
def temporaryFrom (n : Names) (label : String) : (fuel : Nat) → Nat → Nat
  | 0, k => k
  | fuel + 1, k => if n.used.contains (temporaryName label k) then n.temporaryFrom label fuel (k + 1) else k

/-- A new temporary; each label has numbers of its own. -/
def temporary (n : Names) (label : String) : String × Names :=
  let last := (n.counters.lookup label).getD 0
  let k := n.temporaryFrom label n.used.length (last + 1)
  let name := temporaryName label k
  (name, { n with used := name :: n.used, counters := (label, k) :: n.counters })

end Names

end Fragment.Emit
