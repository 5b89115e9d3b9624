import Fragment.Source.Program

/-! What the statements of one function declare and assign, functions inside it apart. -/
namespace Fragment.Emit

open Fragment.Source (Mark Expr Property Stmt Block VarDeclarator)

mutual

/-- The nodes that declare variables, functions and enumerations. -/
def declaredIn : Stmt → List Mark
  | .var _ _ declarations _ => declarations.map (·.mark)
  | .function m .. => [m]
  | .enum m .. => [m]
  | .block (.mk _ ss) => declaredInAll ss
  | .cond _ _ yes no => declaredIn yes ++ (match no with
    | some s => declaredIn s
    | none => [])
  | .loop _ _ body => declaredIn body
  | _ => []

def declaredInAll : List Stmt → List Mark
  | [] => []
  | s :: ss => declaredIn s ++ declaredInAll ss

end

mutual

/-- The nodes that declare a `var` with a value at run time. -/
def hoistedIn : Stmt → List Mark
  | .var _ kind declarations ambient => if kind = .var && !ambient then declarations.map (·.mark) else []
  | .block (.mk _ ss) => hoistedInAll ss
  | .cond _ _ yes no => hoistedIn yes ++ (match no with
    | some s => hoistedIn s
    | none => [])
  | .loop _ _ body => hoistedIn body
  | _ => []

def hoistedInAll : List Stmt → List Mark
  | [] => []
  | s :: ss => hoistedIn s ++ hoistedInAll ss

end

mutual

/-- The names that an expression assigns to. -/
def assignedIn : Expr → List Mark
  | .object _ properties => assignedInProperties properties
  | .array _ elements => assignedInExprs elements
  | .member _ target _ => assignedIn target
  | .element _ target index => assignedIn target ++ assignedIn index
  | .call _ callee args => assignedIn callee ++ assignedInExprs args
  | .unary _ _ operand => assignedIn operand
  | .await _ operand => assignedIn operand
  | .binary _ _ left right => assignedIn left ++ assignedIn right
  | .conditional _ test yes no => assignedIn test ++ assignedIn yes ++ assignedIn no
  | .assign _ _ target value => (match target with
    | .ident m _ => [m]
    | _ => []) ++ assignedIn target ++ assignedIn value
  | .cast _ e _ => assignedIn e
  | _ => []

def assignedInExprs : List Expr → List Mark
  | [] => []
  | e :: es => assignedIn e ++ assignedInExprs es

def assignedInProperties : List Property → List Mark
  | [] => []
  | .mk _ _ value _ :: ps => assignedIn value ++ assignedInProperties ps

end

/-- The names that the first values of some variables assign to. -/
def assignedInDeclarators : List VarDeclarator → List Mark
  | [] => []
  | .mk _ _ _ init :: ds => (match init with
    | some e => assignedIn e
    | none => []) ++ assignedInDeclarators ds

mutual

/-- The names that a statement assigns to. -/
def assignedInStmt : Stmt → List Mark
  | .expr _ e => assignedIn e
  | .var _ _ declarations _ => assignedInDeclarators declarations
  | .ret _ value => match value with
    | some e => assignedIn e
    | none => []
  | .block (.mk _ ss) => assignedInStmts ss
  | .cond _ test yes no => assignedIn test ++ assignedInStmt yes ++ (match no with
    | some s => assignedInStmt s
    | none => [])
  | .loop _ test body => assignedIn test ++ assignedInStmt body
  | _ => []

def assignedInStmts : List Stmt → List Mark
  | [] => []
  | s :: ss => assignedInStmt s ++ assignedInStmts ss

end

end Fragment.Emit
