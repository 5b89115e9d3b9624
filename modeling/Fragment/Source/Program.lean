import Fragment.Source.Extent
import Fragment.Number

/-! The abstract tree of a source file.
Every node carries a mark with its place in the text and a number of its own: two nodes that look
alike are told apart by their numbers, and what is known about a node is kept under its number. -/
namespace Fragment.Source

/-- The identity and the place of a node. -/
structure Mark where
  id : Nat
  extent : Extent

/-- The value of a literal type. -/
inductive LiteralValue where
  | text (t : String)
  | number (n : Number)
  | bool (b : Bool)

mutual

/-- A type as it is written. -/
inductive TypeNode where
  | ref (mark : Mark) (name : String) (args : List TypeNode)
  | array (mark : Mark) (element : TypeNode)
  | union (mark : Mark) (types : List TypeNode)
  | intersection (mark : Mark) (types : List TypeNode)
  | literal (mark : Mark) (value : LiteralValue)
  | function (mark : Mark) (params : List Param) (result : TypeNode)
  | members (mark : Mark) (members : List TypeMember)

/-- A member of an interface or of a type with members. -/
inductive TypeMember where
  | property (mark : Mark) (name : String) (type : TypeNode) (optional : Bool)
  | method (mark : Mark) (name : String) (params : List Param) (result : Option TypeNode) (optional : Bool)
  | call (mark : Mark) (params : List Param) (result : Option TypeNode)

/-- A parameter of a function. -/
inductive Param where
  | mk (mark : Mark) (name : String) (type : Option TypeNode) (optional : Bool) (rest : Bool)

end

/-- A parameter of a type declaration. -/
structure TypeParam where
  mark : Mark
  name : String
  constraint : Option TypeNode

inductive UnaryOp where
  | minus | plus | not | typeof
  deriving DecidableEq

inductive BinaryOp where
  | add | sub | mul | div | rem | pow
  | less | greater | lessEqual | greaterEqual
  | strictEqual | strictNotEqual | looseEqual | looseNotEqual
  | and | or
  deriving DecidableEq

/-- How an assignment combines the old value with the new: not at all, or by an operator. -/
abbrev AssignOp := Option BinaryOp

/-- The word that begins a variable declaration. -/
inductive VarKind where
  | const | lexical | var
  deriving DecidableEq

mutual

/-- An expression. -/
inductive Expr where
  | number (mark : Mark) (value : Number) (text : String)
  | string (mark : Mark) (value : String)
  | boolean (mark : Mark) (value : Bool)
  | ident (mark : Mark) (name : String)
  | object (mark : Mark) (properties : List Property)
  | array (mark : Mark) (elements : List Expr)
  | member (mark : Mark) (target : Expr) (name : String)
  | element (mark : Mark) (target index : Expr)
  | call (mark : Mark) (callee : Expr) (args : List Expr)
  | unary (mark : Mark) (op : UnaryOp) (operand : Expr)
  | await (mark : Mark) (operand : Expr)
  | binary (mark : Mark) (op : BinaryOp) (left right : Expr)
  | conditional (mark : Mark) (test thenBranch otherwise : Expr)
  | assign (mark : Mark) (op : AssignOp) (target value : Expr)
  | cast (mark : Mark) (expr : Expr) (type : TypeNode)
  | arrow (mark : Mark) (params : List Param) (body : Body) (result : Option TypeNode) (isAsync : Bool)

/-- A property of an object literal. -/
inductive Property where
  | mk (mark : Mark) (name : String) (value : Expr) (shorthand : Bool)

/-- The body of an arrow function. -/
inductive Body where
  | block (block : Block)
  | expr (expr : Expr)

/-- Statements between braces. -/
inductive Block where
  | mk (mark : Mark) (statements : List Stmt)

/-- One variable of a declaration. -/
inductive VarDeclarator where
  | mk (mark : Mark) (name : String) (type : Option TypeNode) (init : Option Expr)

/-- A member of an enumeration. -/
inductive EnumMember where
  | mk (mark : Mark) (name : String) (init : Option Expr)

/-- A statement. -/
inductive Stmt where
  | expr (mark : Mark) (expr : Expr)
  | var (mark : Mark) (kind : VarKind) (declarations : List VarDeclarator) (ambient : Bool)
  | ret (mark : Mark) (value : Option Expr)
  | brk (mark : Mark)
  | cont (mark : Mark)
  | empty (mark : Mark)
  | block (block : Block)
  | cond (mark : Mark) (test : Expr) (thenBranch : Stmt) (otherwise : Option Stmt)
  | loop (mark : Mark) (test : Expr) (body : Stmt)
  | function (mark : Mark) (name : String) (params : List Param) (result : Option TypeNode)
      (body : Option Block) (isAsync ambient : Bool)
  | typeAlias (mark : Mark) (name : String) (typeParams : List TypeParam) (type : TypeNode)
  | interface (mark : Mark) (name : String) (typeParams : List TypeParam) (parents : List TypeNode)
      (members : List TypeMember)
  | enum (mark : Mark) (name : String) (members : List EnumMember) (isConst ambient : Bool)
  | classDecl (mark : Mark) (name : String)
  | importDecl (mark : Mark) (module : String)

end

/-- A parsed file. -/
structure SourceFile where
  name : String
  statements : List Stmt
  /-- The libraries that the head of the file refers to. -/
  references : List String

def TypeNode.mark : TypeNode → Mark
  | .ref m .. | .array m .. | .union m .. | .intersection m .. | .literal m .. | .function m ..
  | .members m .. => m

def TypeMember.mark : TypeMember → Mark
  | .property m .. | .method m .. | .call m .. => m

namespace Param

def mark : Param → Mark
  | .mk m .. => m

def name : Param → String
  | .mk _ n .. => n

def type : Param → Option TypeNode
  | .mk _ _ t .. => t

def optional : Param → Bool
  | .mk _ _ _ o _ => o

def rest : Param → Bool
  | .mk _ _ _ _ r => r

end Param

def Expr.mark : Expr → Mark
  | .number m .. | .string m .. | .boolean m .. | .ident m .. | .object m .. | .array m ..
  | .member m .. | .element m .. | .call m .. | .unary m .. | .await m .. | .binary m ..
  | .conditional m .. | .assign m .. | .cast m .. | .arrow m .. => m

def Expr.id (e : Expr) : Nat := e.mark.id

namespace Property

def mark : Property → Mark
  | .mk m .. => m

def name : Property → String
  | .mk _ n .. => n

def value : Property → Expr
  | .mk _ _ v _ => v

end Property

namespace Block

def mark : Block → Mark
  | .mk m _ => m

def statements : Block → List Stmt
  | .mk _ ss => ss

end Block

namespace VarDeclarator

def mark : VarDeclarator → Mark
  | .mk m .. => m

def name : VarDeclarator → String
  | .mk _ n .. => n

def type : VarDeclarator → Option TypeNode
  | .mk _ _ t _ => t

def init : VarDeclarator → Option Expr
  | .mk _ _ _ i => i

end VarDeclarator

namespace EnumMember

def mark : EnumMember → Mark
  | .mk m .. => m

def name : EnumMember → String
  | .mk _ n _ => n

def init : EnumMember → Option Expr
  | .mk _ _ i => i

end EnumMember

def Stmt.mark : Stmt → Mark
  | .expr m .. | .var m .. | .ret m .. | .brk m | .cont m | .empty m | .block (.mk m _)
  | .cond m .. | .loop m .. | .function m .. | .typeAlias m .. | .interface m .. | .enum m ..
  | .classDecl m .. | .importDecl m .. => m

/-- What a statement is called in messages. -/
def Stmt.kindName : Stmt → String
  | .expr .. => "expression statement"
  | .var .. => "variable declaration"
  | .ret .. => "return statement"
  | .brk .. => "break statement"
  | .cont .. => "continue statement"
  | .empty .. => "empty statement"
  | .block .. => "block"
  | .cond .. => "if statement"
  | .loop .. => "while statement"
  | .function .. => "function declaration"
  | .typeAlias .. => "type alias declaration"
  | .interface .. => "interface declaration"
  | .enum .. => "enum declaration"
  | .classDecl .. => "class declaration"
  | .importDecl .. => "import declaration"

/-- Whether a file only declares things. -/
def isDeclarationName (name : String) : Bool := name.endsWith ".d.ts"

def SourceFile.isDeclaration (f : SourceFile) : Bool := isDeclarationName f.name

namespace UnaryOp

def text : UnaryOp → String
  | .minus => "-"
  | .plus => "+"
  | .not => "!"
  | .typeof => "typeof"

end UnaryOp

namespace BinaryOp

def text : BinaryOp → String
  | .add => "+"
  | .sub => "-"
  | .mul => "*"
  | .div => "/"
  | .rem => "%"
  | .pow => "**"
  | .less => "<"
  | .greater => ">"
  | .lessEqual => "<="
  | .greaterEqual => ">="
  | .strictEqual => "==="
  | .strictNotEqual => "!=="
  | .looseEqual => "=="
  | .looseNotEqual => "!="
  | .and => "&&"
  | .or => "||"

end BinaryOp

/-- The spelling of an assignment. -/
def AssignOp.text (op : AssignOp) : String := (op.elim "" BinaryOp.text) ++ "="

def VarKind.text : VarKind → String
  | .const => "const"
  | .lexical => "let"
  | .var => "var"

end Fragment.Source
