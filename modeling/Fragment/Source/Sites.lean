import Fragment.Source.Program

/-! The places of a file that have a type of their own: expressions and declared names. -/
namespace Fragment.Source

/-- An expression, or the declaration of a name. -/
inductive Site where
  | expr (e : Expr)
  | variable (d : VarDeclarator)
  | param (p : Param)
  | function (mark : Mark)
  | enum (mark : Mark)

mutual

/-- The sites of an expression, itself first. -/
def Expr.sites : Expr → List Site
  | .object m properties => .expr (.object m properties) :: propertySites properties
  | .array m elements => .expr (.array m elements) :: exprSites elements
  | .member m target name => .expr (.member m target name) :: target.sites
  | .element m target index => .expr (.element m target index) :: target.sites ++ index.sites
  | .call m callee args => .expr (.call m callee args) :: callee.sites ++ exprSites args
  | .unary m op operand => .expr (.unary m op operand) :: operand.sites
  | .await m operand => .expr (.await m operand) :: operand.sites
  | .binary m op left right => .expr (.binary m op left right) :: left.sites ++ right.sites
  | .conditional m test yes no => .expr (.conditional m test yes no) :: test.sites ++ yes.sites ++ no.sites
  | .assign m op target value => .expr (.assign m op target value) :: target.sites ++ value.sites
  | .cast m e type => .expr (.cast m e type) :: e.sites
  | .arrow m params body result isAsync =>
    .expr (.arrow m params body result isAsync) :: params.map .param ++ body.sites
  | e => [.expr e]

def exprSites : List Expr → List Site
  | [] => []
  | e :: es => e.sites ++ exprSites es

def propertySites : List Property → List Site
  | [] => []
  | .mk _ _ value _ :: ps => value.sites ++ propertySites ps

def Body.sites : Body → List Site
  | .block b => b.sites
  | .expr e => e.sites

def Block.sites : Block → List Site
  | .mk _ ss => stmtSites ss

/-- The sites of a statement. -/
def Stmt.sites : Stmt → List Site
  | .expr _ e => e.sites
  | .var _ _ declarations _ => declaratorSites declarations
  | .ret _ value => match value with
    | some e => e.sites
    | none => []
  | .block b => b.sites
  | .cond _ test yes no => test.sites ++ yes.sites ++ (match no with
    | some s => s.sites
    | none => [])
  | .loop _ test body => test.sites ++ body.sites
  | .function m _ params _ body _ _ => .function m :: params.map .param ++ (match body with
    | some b => b.sites
    | none => [])
  | .enum m _ members _ _ => .enum m :: memberSites members
  | _ => []

def stmtSites : List Stmt → List Site
  | [] => []
  | s :: ss => s.sites ++ stmtSites ss

def declaratorSites : List VarDeclarator → List Site
  | [] => []
  | .mk m name type init :: ds => .variable (.mk m name type init) :: (match init with
    | some e => e.sites
    | none => []) ++ declaratorSites ds

def memberSites : List EnumMember → List Site
  | [] => []
  | .mk _ _ init :: ms => (match init with
    | some e => e.sites
    | none => []) ++ memberSites ms

end

def SourceFile.sites (f : SourceFile) : List Site := stmtSites f.statements

/-- Where a site stands. -/
def Site.mark : Site → Mark
  | .expr e => e.mark
  | .variable d => d.mark
  | .param p => p.mark
  | .function m | .enum m => m

end Fragment.Source
