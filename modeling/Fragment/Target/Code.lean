import Fragment.Number

/-! Generated code.
The output language is a small part of Python: expressions, assignments, conditions, loops and
nested functions. Operations in which the fragment language differs from it are calls of helpers. -/
namespace Fragment.Target

/-- The operators that generated code uses directly. -/
inductive Operator where
  | add | sub | mul | less | greater | lessEqual | greaterEqual | equal | notEqual
  deriving DecidableEq

def Operator.text : Operator → String
  | .add => "+"
  | .sub => "-"
  | .mul => "*"
  | .less => "<"
  | .greater => ">"
  | .lessEqual => "<="
  | .greaterEqual => ">="
  | .equal => "=="
  | .notEqual => "!="

/-- The helpers that generated code calls. -/
inductive Helper where
  | toNumber | truthy | typeOf | concat | add | divide | remainder | power
  | strictEquals | looseEquals | getMember | setMember | index | length
  deriving DecidableEq

def Helper.name : Helper → String
  | .toNumber => "to_number"
  | .truthy => "truthy"
  | .typeOf => "type_of"
  | .concat => "concat"
  | .add => "add"
  | .divide => "divide"
  | .remainder => "remainder"
  | .power => "power"
  | .strictEquals => "strict_equals"
  | .looseEquals => "loose_equals"
  | .getMember => "get_member"
  | .setMember => "set_member"
  | .index => "index"
  | .length => "length"

/-- An expression. -/
inductive Expr where
  | none
  | bool (b : Bool)
  | number (n : Number)
  | text (t : String)
  | name (x : String)
  | dict (entries : List (String × Expr))
  | list (items : List Expr)
  | subscript (target : Expr) (key : String)
  | call (callee : Expr) (args : List Expr)
  | helper (h : Helper) (args : List Expr)
  /-- The helper `truthy` of a value that also goes into a variable. -/
  | truthyBind (x : String) (value : Expr)
  /-- The result of a promise, or the value itself. -/
  | await (value : Expr)
  | negate (operand : Expr)
  | not (operand : Expr)
  | binary (op : Operator) (left right : Expr)
  | and (left right : Expr)
  | or (left right : Expr)
  | cond (test yes no : Expr)
  /-- An assignment whose value is used. -/
  | bind (x : String) (value : Expr)

/-- How a parameter is passed. -/
inductive ParamMode where
  | required
  | optional
  | rest
  deriving DecidableEq

structure Param where
  name : String
  mode : ParamMode

/-- A statement. -/
inductive Stmt where
  | assign (x : String) (value : Expr)
  | expr (value : Expr)
  | ret (value : Expr)
  | cond (test : Expr) (yes : List Stmt) (no : Option (List Stmt))
  | loop (test : Expr) (body : List Stmt)
  | brk
  | cont
  | pass
  /-- Names of the outermost level that the function assigns. -/
  | globals (names : List String)
  /-- Names of functions around that the function assigns. -/
  | nonlocals (names : List String)
  /-- Turns the rest arguments into an array. -/
  | collect (x : String)
  | define (name : String) (isAsync : Bool) (params : List Param) (body : List Stmt)

/-- The names that the generated code uses for itself. -/
def helpersName : String := "__rt"

def completionName : String := "__completion__"

def moduleName : String := "__module__"

mutual

/-- The names that an expression assigns. -/
def Expr.bound : Expr → List String
  | .dict entries => boundEntries entries
  | .list items => boundAll items
  | .subscript target _ => target.bound
  | .call callee args => callee.bound ++ boundAll args
  | .helper _ args => boundAll args
  | .truthyBind x value => x :: value.bound
  | .await value | .negate value | .not value => value.bound
  | .binary _ left right | .and left right | .or left right => left.bound ++ right.bound
  | .cond test yes no => test.bound ++ yes.bound ++ no.bound
  | .bind x value => x :: value.bound
  | _ => []

def boundAll : List Expr → List String
  | [] => []
  | e :: rest => e.bound ++ boundAll rest

def boundEntries : List (String × Expr) → List String
  | [] => []
  | (_, e) :: rest => e.bound ++ boundEntries rest

end

mutual

/-- The names that a statement assigns, outside of functions defined in it. -/
def Stmt.bound : Stmt → List String
  | .assign x value => x :: value.bound
  | .expr value | .ret value => value.bound
  | .cond test yes no => test.bound ++ boundIn yes ++ boundInOption no
  | .loop test body => test.bound ++ boundIn body
  | .collect x => [x]
  | .define name .. => [name]
  | _ => []

def boundIn : List Stmt → List String
  | [] => []
  | s :: rest => s.bound ++ boundIn rest

def boundInOption : Option (List Stmt) → List String
  | none => []
  | some body => boundIn body

end

/-- The names that a function body takes from the outermost level. -/
def globalNames (body : List Stmt) : List String :=
  body.flatMap fun
    | .globals names => names
    | _ => []

/-- The names that a function body takes from elsewhere although it assigns them. -/
def borrowed (body : List Stmt) : List String :=
  body.flatMap fun
    | .globals names | .nonlocals names => names
    | _ => []

/-- The variables of a function: its parameters and what its body assigns, without borrowed names. -/
def localNames (params : List Param) (body : List Stmt) : List String :=
  let outside := borrowed body
  ((params.map (·.name)) ++ boundIn body).eraseDups.filter (!outside.contains ·)

end Fragment.Target
