import Fragment.Source.Program

/-! How statements end: what a function returns, and whether control can pass their end. -/
namespace Fragment.Typing

open Fragment.Source (Expr Stmt Block)

mutual

/-- What the return statements of a statement return, functions inside it apart. -/
def returnsOf : Stmt → List (Option Expr)
  | .ret _ value => [value]
  | .block (.mk _ ss) => returnsOfAll ss
  | .cond _ _ thenBranch otherwise => returnsOf thenBranch ++ (match otherwise with
    | some s => returnsOf s
    | none => [])
  | .loop _ _ body => returnsOf body
  | _ => []

def returnsOfAll : List Stmt → List (Option Expr)
  | [] => []
  | s :: ss => returnsOf s ++ returnsOfAll ss

end

mutual

/-- Whether a statement holds a `break` of the loop around it. -/
def containsBreak : Stmt → Bool
  | .brk _ => true
  | .block (.mk _ ss) => anyContainsBreak ss
  | .cond _ _ thenBranch otherwise => containsBreak thenBranch || (match otherwise with
    | some s => containsBreak s
    | none => false)
  | _ => false

def anyContainsBreak : List Stmt → Bool
  | [] => false
  | s :: ss => containsBreak s || anyContainsBreak ss

end

/-- Whether an expression is the literal `true`. -/
def isLiteralTrue : Expr → Bool
  | .boolean _ b => b
  | _ => false

mutual

/-- Whether control can pass the end of a statement. -/
def completes : Stmt → Bool
  | .ret .. | .brk _ | .cont _ => false
  | .block (.mk _ ss) => endReachable ss
  | .cond _ _ thenBranch otherwise => match otherwise with
    | some s => completes thenBranch || completes s
    | none => true
  | .loop _ test body => !isLiteralTrue test || containsBreak body
  | _ => true

/-- Whether control can pass the end of some statements. -/
def endReachable : List Stmt → Bool
  | [] => true
  | s :: ss => completes s && endReachable ss

end

end Fragment.Typing
