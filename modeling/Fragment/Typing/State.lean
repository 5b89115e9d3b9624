import Fragment.Diagnostic
import Fragment.Source.Program
import Fragment.Typing.Flags
import Fragment.Typing.Message
import Std.Data.HashMap
import Std.Data.TreeMap

/-! What the checker knows about a program.
Types, symbols, signatures and scopes are numbered in the order in which they come into being, and
known by their numbers. Everything else is kept under the numbers of nodes. Members, result types
and types of symbols are worked out when they are first asked for and then kept. -/
namespace Fragment.Typing

open Fragment.Source (Mark TypeNode TypeMember Param TypeParam Block VarDeclarator EnumMember Property)

abbrev TypeId := Nat
abbrev SymbolId := Nat
abbrev SignatureId := Nat
abbrev ScopeId := Nat
abbrev NodeId := Nat

/-- The types that the parameters of a generic declaration stand for, by name. -/
abbrev TypeScope := List (String × TypeId)

/-- What type parameters are replaced by. -/
abbrev Mapper := List (TypeId × TypeId)

/-- The body of a function, if it has one. -/
inductive FunctionBody where
  | none
  | block (b : Block)
  | expr (e : Source.Expr)

/-- Anything that has parameters and a result: a function or a signature. -/
structure FunctionNode where
  mark : Mark
  params : List Param
  result : Option TypeNode
  body : FunctionBody := .none
  isAsync : Bool := false
  ambient : Bool := false

/-- Where a symbol is declared. -/
inductive Declaration where
  | variable (d : VarDeclarator)
  | param (p : Param)
  | function (f : FunctionNode)
  | interface (mark : Mark) (typeParams : List TypeParam) (parents : List TypeNode) (members : List TypeMember)
  | typeAlias (mark : Mark) (typeParams : List TypeParam) (type : TypeNode)
  | enum (mark : Mark) (members : List EnumMember)
  | enumMember (m : EnumMember)
  | typeParam (p : TypeParam)
  | property (mark : Mark) (type : TypeNode)
  | method (f : FunctionNode)
  | objectProperty (p : Property)

def Declaration.mark : Declaration → Mark
  | .variable d => d.mark
  | .param p => p.mark
  | .function f => f.mark
  | .interface m .. => m
  | .typeAlias m .. => m
  | .enum m _ => m
  | .enumMember m => m.mark
  | .typeParam p => p.mark
  | .property m _ => m
  | .method f => f.mark
  | .objectProperty p => p.mark

/-- A named thing: variable, parameter, property, function, interface and so on. -/
structure Symbol where
  flags : SymbolFlags
  name : String
  declarations : List Declaration := []
  valueDeclaration : Option Declaration := none
  parent : Option SymbolId := none
  isConst : Bool := false
  isAmbient : Bool := false
  /-- The type of its value, once known. -/
  type : Option TypeId := none
  /-- The type that it names, once known. -/
  declaredType : Option TypeId := none
  typeParameters : List TypeId := []
  enumValue : Option Number := none
  /-- The symbol that this one is an instance of. -/
  target : Option SymbolId := none
  mapper : Mapper := []
  typeScope : TypeScope := []

def Symbol.isOptional (s : Symbol) : Bool := s.flags.meets SymbolFlags.optional

/-- The properties, in order, and the call signatures of a type. -/
structure Members where
  properties : List (String × SymbolId) := []
  signatures : List SignatureId := []

/-- The value of a literal type. -/
inductive Literal where
  | text (t : String)
  | number (n : Number)
  | bool (b : Bool)

/-- Whether the value counts as true; there is no literal NaN, which would not. -/
def Literal.isTruthy : Literal → Bool
  | .text t => t ≠ ""
  | .number (.int n) => n ≠ 0
  | .number (.float x) => !(Number.float x).isZero && !Double.isNaN x
  | .bool b => b

/-- An object type without a name of its own. -/
structure Anonymous where
  isObjectLiteral : Bool := false
  isEnumObject : Bool := false
  /-- Whether it is an object literal that has not been given to anything yet. -/
  isFresh : Bool := false
  /-- The type as it was written, if it was. -/
  node : Option TypeNode := none
  typeScope : TypeScope := []
  /-- The type that this one is an instance of. -/
  target : Option TypeId := none
  mapper : Mapper := []
  /-- The same type without freshness, once made. -/
  regular : Option TypeId := none

/-- What a type is made of. -/
inductive Form where
  | intrinsic (name : String)
  | literal (value : Literal) (base : TypeId)
  | enum (members : List SymbolId)
  | enumLiteral (value : Number) (base : TypeId)
  | typeParameter (constraint : Option TypeId)
  | union (types : List TypeId)
  | intersection (types : List TypeId)
  | interface (params : List TypeId)
  | reference (target : TypeId) (args : List TypeId)
  | array (element : TypeId)
  | anonymous (a : Anonymous)

/-- A type. -/
structure TypeInfo where
  flags : TypeFlags
  form : Form
  symbol : Option SymbolId := none
  /-- The name that an alias gave it. -/
  givenName : Option String := none
  /-- Its members, once known. -/
  members : Option Members := none

/-- A call signature. -/
structure Signature where
  node : FunctionNode
  parameters : List SymbolId
  least : Nat
  hasRest : Bool
  /-- The type of its result, once known. -/
  result : Option TypeId := none
  target : Option SignatureId := none
  mapper : Mapper := []
  typeScope : TypeScope := []

/-- A stretch of the program in which names are declared. -/
structure Scope where
  parent : Option ScopeId
  names : Std.HashMap String SymbolId := {}

/-- The two relations between types. -/
inductive Relation where
  | assignable
  | comparable
  deriving DecidableEq, Ord

/-- A question about two types. -/
abbrev RelationKey := Relation × TypeId × TypeId

/-- Questions by relation, then by source, then by target. -/
def RelationKey.order : RelationKey → RelationKey → Ordering :=
  compareLex (compareOn (·.1)) (compareLex (compareOn (·.2.1)) (compareOn (·.2.2)))

/-- Answers to questions. -/
abbrev KeptAnswers := Std.TreeMap RelationKey Bool RelationKey.order

/-- All that is known. -/
structure State where
  types : Array TypeInfo := #[]
  symbols : Array Symbol := #[]
  signatures : Array Signature := #[]
  scopes : Array Scope := #[]
  -- Facts about nodes.
  fileOf : Std.HashMap NodeId String := {}
  scopeOf : Std.HashMap NodeId ScopeId := {}
  /-- The function around a node, if it stands in one. -/
  containerOf : Std.HashMap NodeId (Option FunctionNode) := {}
  symbolOf : Std.HashMap NodeId SymbolId := {}
  nodeTypes : Std.HashMap NodeId TypeId := {}
  typeNodeTypes : Std.HashMap NodeId TypeId := {}
  resolvedSymbols : Std.HashMap NodeId SymbolId := {}
  resolvedSignatures : Std.HashMap NodeId SignatureId := {}
  constants : Std.HashMap NodeId Number := {}
  functionSignatures : Std.HashMap NodeId SignatureId := {}
  contextualSignatures : Std.HashMap NodeId SignatureId := {}
  -- Work to do, and work that is being done.
  deferred : List FunctionNode := []
  checkedBodies : Std.HashMap NodeId Unit := {}
  checkedFiles : List String := []
  resolvingSymbols : List SymbolId := []
  resolvingSignatures : List SignatureId := []
  -- Types that exist once.
  textLiterals : Std.HashMap String TypeId := {}
  numberLiterals : Std.HashMap (Option UInt64 × Int) TypeId := {}
  unions : Std.HashMap (List TypeId × String) TypeId := {}
  intersections : Std.HashMap (List TypeId) TypeId := {}
  arrays : Std.HashMap TypeId TypeId := {}
  references : Std.HashMap (TypeId × List TypeId) TypeId := {}
  instances : Std.HashMap (TypeId × List (TypeId × TypeId)) TypeId := {}
  unionProperties : Std.HashMap (TypeId × String) (Option SymbolId) := {}
  -- Answers about relations.
  relations : KeptAnswers := {}
  relating : List RelationKey := []
  /-- The diagnostics of each file, in the order in which they were found. -/
  diagnostics : Std.HashMap String (List Diagnostic) := {}

/-- A step of the checker. -/
abbrev Check := StateT State (Except Fault)

/-! The types that exist from the start, in the order of their numbers. -/

def anyType : TypeId := 0
def errorType : TypeId := 1
def unknownType : TypeId := 2
def undefinedType : TypeId := 3
def voidType : TypeId := 4
def neverType : TypeId := 5
def stringType : TypeId := 6
def numberType : TypeId := 7
def booleanType : TypeId := 8
def falseType : TypeId := 9
def trueType : TypeId := 10
def emptyObjectType : TypeId := 11

def intrinsic (flags : TypeFlags) (name : String) : TypeInfo := { flags, form := .intrinsic name }

def initialTypes : Array TypeInfo := #[
  intrinsic TypeFlags.any "any",
  intrinsic TypeFlags.any "any",
  intrinsic TypeFlags.unknown "unknown",
  intrinsic TypeFlags.undefined "undefined",
  intrinsic TypeFlags.void "void",
  intrinsic TypeFlags.never "never",
  intrinsic TypeFlags.string "string",
  intrinsic TypeFlags.number "number",
  intrinsic TypeFlags.boolean "boolean",
  { flags := TypeFlags.booleanLiteral, form := .literal (.bool false) 8 },
  { flags := TypeFlags.booleanLiteral, form := .literal (.bool true) 8 },
  { flags := TypeFlags.object, form := .anonymous {}, members := some {} }]

/-- The type that a word of the language names. -/
def intrinsicType? : String → Option TypeId
  | "any" => some anyType
  | "unknown" => some unknownType
  | "undefined" => some undefinedType
  | "void" => some voidType
  | "never" => some neverType
  | "string" => some stringType
  | "number" => some numberType
  | "boolean" => some booleanType
  | _ => none

/-- The symbol of the name `undefined`, the first of all. -/
def undefinedSymbol : SymbolId := 0

/-- The scope around everything. -/
def globalScope : ScopeId := 0

/-- What is known before any file has been looked at. -/
def State.initial : State :=
  { types := initialTypes
    symbols := #[
      { flags := SymbolFlags.functionVariable, name := "undefined", isConst := true,
        isAmbient := true, type := some undefinedType }]
    scopes := #[{ parent := none, names := ({} : Std.HashMap String SymbolId).insert "undefined" undefinedSymbol }] }

namespace State

/-- A type by its number; there is no other than those that have been made. -/
def typeInfo (s : State) (t : TypeId) : TypeInfo := s.types.getD t (intrinsic TypeFlags.any "any")

def symbol (s : State) (x : SymbolId) : Symbol := s.symbols.getD x { flags := 0, name := "" }

def signature? (s : State) (g : SignatureId) : Option Signature := s.signatures[g]?

/-- The function around a node. -/
def container? (s : State) (mark : Mark) : Option FunctionNode := (s.containerOf[mark.id]?).join

end State

namespace Check

def typeInfo (t : TypeId) : Check TypeInfo := return (← get).typeInfo t

def flags (t : TypeId) : Check TypeFlags := return (← typeInfo t).flags

def form (t : TypeId) : Check Form := return (← typeInfo t).form

def symbol (x : SymbolId) : Check Symbol := return (← get).symbol x

/-- A signature by its number. -/
def signature (g : SignatureId) : Check Signature := do
  match (← get).signature? g with
  | some sig => return sig
  | none => throw .recursion

/-- Whether a type has one of some flags. -/
def hasFlag (t : TypeId) (mask : TypeFlags) : Check Bool := return (← flags t).meets mask

def newType (info : TypeInfo) : Check TypeId :=
  modifyGet fun s => (s.types.size, { s with types := s.types.push info })

def newSymbol (x : Symbol) : Check SymbolId :=
  modifyGet fun s => (s.symbols.size, { s with symbols := s.symbols.push x })

def newSignature (g : Signature) : Check SignatureId :=
  modifyGet fun s => (s.signatures.size, { s with signatures := s.signatures.push g })

def newScope (scope : Scope) : Check ScopeId :=
  modifyGet fun s => (s.scopes.size, { s with scopes := s.scopes.push scope })

def modifyType (t : TypeId) (f : TypeInfo → TypeInfo) : Check Unit :=
  modify fun s => { s with types := s.types.modify t f }

def modifySymbol (x : SymbolId) (f : Symbol → Symbol) : Check Unit :=
  modify fun s => { s with symbols := s.symbols.modify x f }

def modifySignature (g : SignatureId) (f : Signature → Signature) : Check Unit :=
  modify fun s => { s with signatures := s.signatures.modify g f }

/-- The parts of a union, or the type itself. -/
def parts (t : TypeId) : Check (List TypeId) := do
  match (← form t) with
  | .union types => return types
  | _ => return [t]

def isUnion (t : TypeId) : Check Bool := do
  match (← form t) with
  | .union _ => return true
  | _ => return false

/-- Reports something about a node. -/
def report (mark : Mark) (m : Message) (notes : List String) : Check Unit :=
  modify fun s =>
    let file := s.fileOf[mark.id]?
    let d : Diagnostic :=
      { message := m.text, code := some m.code, phase := some "typecheck",
        span := Span.ofExtent file mark.extent, notes }
    let key := file.getD ""
    { s with diagnostics := s.diagnostics.insert key ((s.diagnostics.getD key []) ++ [d]) }

def error (mark : Mark) (m : Message) : Check Unit := report mark m []

end Check

end Fragment.Typing
