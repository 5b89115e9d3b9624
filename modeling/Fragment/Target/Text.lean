import Fragment.Target.Code
import Fragment.Text.Quoted

/-! The text of generated code. -/
namespace Fragment.Target

/-- The spelling of a number, in parentheses if it begins with a sign. Integral doubles below
`2 ^ 53` are spelled as integers; infinities and NaN are spelled as products of a number that
overflows. -/
def numberLiteral (n : Number) : String :=
  let plain (t : String) : String := if t.startsWith "-" then "(" ++ t ++ ")" else t
  match n with
  | .int n => plain (toString n)
  | .float x => match Double.floatKind x with
    | .nan => "(1e999 * 0)"
    | .infinite negative => if negative then "(-1e999)" else "1e999"
    | .finite b =>
      if b.isInteger && b.truncate.natAbs < Nat.pow 2 53 then plain (toString b.truncate)
      else plain (Double.valueText x)

mutual

/-- The text of an expression. Whatever has an operator stands in parentheses. -/
def Expr.render : Expr → String
  | .none => "None"
  | .bool b => if b then "True" else "False"
  | .number n => numberLiteral n
  | .text t => Text.quoted t
  | .name x => x
  | .dict entries => "\x7b" ++ renderEntries entries ++ "\x7d"
  | .list items => "[" ++ renderAll items ++ "]"
  | .subscript target key => target.render ++ "[" ++ Text.quoted key ++ "]"
  | .call callee args => callee.render ++ "(" ++ renderAll args ++ ")"
  | .helper h args => helpersName ++ "." ++ h.name ++ "(" ++ renderAll args ++ ")"
  | .truthyBind x value => helpersName ++ ".truthy(" ++ x ++ " := " ++ value.render ++ ")"
  | .await value => "(await " ++ helpersName ++ ".awaited(" ++ value.render ++ "))"
  | .negate operand => "(-" ++ operand.render ++ ")"
  | .not operand => "(not " ++ operand.render ++ ")"
  | .binary op left right => "(" ++ left.render ++ " " ++ op.text ++ " " ++ right.render ++ ")"
  | .and left right => "(" ++ left.render ++ " and " ++ right.render ++ ")"
  | .or left right => "(" ++ left.render ++ " or " ++ right.render ++ ")"
  | .cond test yes no => "(" ++ yes.render ++ " if " ++ test.render ++ " else " ++ no.render ++ ")"
  | .bind x value => "(" ++ x ++ " := " ++ value.render ++ ")"

def renderAll : List Expr → String
  | [] => ""
  | [e] => e.render
  | e :: rest => e.render ++ ", " ++ renderAll rest

def renderEntries : List (String × Expr) → String
  | [] => ""
  | [(key, e)] => Text.quoted key ++ ": " ++ e.render
  | (key, e) :: rest => Text.quoted key ++ ": " ++ e.render ++ ", " ++ renderEntries rest

end

def Param.render (p : Param) : String :=
  match p.mode with
  | .required => p.name
  | .optional => p.name ++ "=None"
  | .rest => "*" ++ p.name

/-- A line of code and how deep it is indented. -/
structure Line where
  depth : Nat
  text : String

def Line.render (l : Line) : String := String.ofList (List.replicate (4 * l.depth) ' ') ++ l.text

/-- The head of a function definition. -/
def defineHead (name : String) (isAsync : Bool) (params : List Param) : String :=
  (if isAsync then "async def " else "def ") ++ name ++ "(" ++
    String.intercalate ", " (params.map Param.render) ++ "):"

mutual

/-- The lines of a statement. -/
def Stmt.lines (depth : Nat) : Stmt → List Line
  | .assign x value => [⟨depth, x ++ " = " ++ value.render⟩]
  | .expr value => [⟨depth, value.render⟩]
  | .ret value => [⟨depth, "return " ++ value.render⟩]
  | .cond test yes no =>
    ⟨depth, "if " ++ test.render ++ ":"⟩ :: linesOf (depth + 1) yes ++ linesOfOption depth no
  | .loop test body => ⟨depth, "while " ++ test.render ++ ":"⟩ :: linesOf (depth + 1) body
  | .brk => [⟨depth, "break"⟩]
  | .cont => [⟨depth, "continue"⟩]
  | .pass => [⟨depth, "pass"⟩]
  | .globals names => [⟨depth, "global " ++ String.intercalate ", " names⟩]
  | .nonlocals names => [⟨depth, "nonlocal " ++ String.intercalate ", " names⟩]
  | .collect x => [⟨depth, x ++ " = [*" ++ x ++ "]"⟩]
  | .define name isAsync params body =>
    ⟨depth, defineHead name isAsync params⟩ :: linesOf (depth + 1) body

/-- The lines of some statements. -/
def linesOf (depth : Nat) : List Stmt → List Line
  | [] => []
  | s :: rest => s.lines depth ++ linesOf depth rest

/-- The lines of the other branch of a condition. -/
def linesOfOption (depth : Nat) : Option (List Stmt) → List Line
  | none => []
  | some body => ⟨depth, "else:"⟩ :: linesOf (depth + 1) body

end

/-- Code with a comment about the file it was made of. -/
structure Module where
  source : String
  body : List Stmt

def Module.lines (m : Module) : List Line :=
  ⟨0, "# Generated by fragc from " ++ m.source ++ "."⟩ :: linesOf 0 m.body

def Module.render (m : Module) : String := String.join (m.lines.map fun l => l.render ++ "\n")

end Fragment.Target
