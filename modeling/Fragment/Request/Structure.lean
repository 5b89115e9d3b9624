import Fragment.CompileError
import Fragment.Source.Program

/-! The first condition on a fragment: it is exactly one expression statement. -/
namespace Fragment.Request

/-- The expression of a fragment. -/
def fragmentExpr (file : Source.SourceFile) : Except CompileError Source.Expr :=
  match file.statements with
  | [.expr _ e] => .ok e
  | [stmt] => .error (.structural ("source must be an expression, found " ++ stmt.kindName)
      (some stmt.kindName) (Span.ofExtent file.name stmt.mark.extent))
  | _ :: second :: _ => .error (.structural "source must be a single expression" none
      (Span.ofExtent file.name second.mark.extent))
  | [] => .error (.structural "source must be a single expression" none { file := some file.name })

/-- The one output that a fragment has to give, among the outputs written. -/
def singleOutput (skipped : Bool) (outputs : List (String × String)) : Except CompileError String :=
  if skipped then .error (.emission "emit was skipped")
  else match outputs with
    | [(path, code)] =>
      if path = "/fragment.py" then .ok code
      else .error (.emission ("unexpected output path '" ++ path ++ "'"))
    | _ =>
      let count := outputs.length
      .error (.emission s!"expected exactly one output, got {count}")

end Fragment.Request
