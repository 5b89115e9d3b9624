import Fragment.Target.Text

/-! Rules that code has to keep before it can run: the order of parameters, and names that are
assigned from inside a function have to belong to a function around it. -/
namespace Fragment.Target

/-- A broken rule and the line it is broken in. -/
structure Violation where
  message : String
  line : Nat

/-- What is wrong with a list of parameters. -/
def paramFault (seenOptional seenRest : Bool) : List Param → Option String
  | [] => none
  | p :: rest =>
    match p.mode with
    | .required =>
      if seenOptional && !seenRest then some "non-default argument follows default argument"
      else paramFault seenOptional seenRest rest
    | .optional => paramFault true seenRest rest
    | .rest =>
      if seenRest then some "* argument may appear only once" else paramFault seenOptional true rest

mutual

/-- The first function with bad parameters in a statement that starts at `line`. -/
def Stmt.paramViolation (line : Nat) : Stmt → Option Violation
  | .cond _ yes no => (paramViolationIn (line + 1) yes).or
      (paramViolationInOption (line + 2 + (linesOf 0 yes).length) no)
  | .loop _ body => paramViolationIn (line + 1) body
  | .define _ _ params body => match paramFault false false params with
    | some message => some ⟨message, line⟩
    | none => paramViolationIn (line + 1) body
  | _ => none

def paramViolationIn (line : Nat) : List Stmt → Option Violation
  | [] => none
  | s :: rest => (s.paramViolation line).or (paramViolationIn (line + (s.lines 0).length) rest)

def paramViolationInOption (line : Nat) : Option (List Stmt) → Option Violation
  | none => none
  | some body => paramViolationIn line body

end

mutual

/-- The first name that a function assigns as belonging to a function around it, and that none
binds; `around` are the names that those functions bind. -/
def Stmt.nameViolation (around : List String) (line : Nat) : Stmt → Option Violation
  | .cond _ yes no => (nameViolationIn around (line + 1) yes).or
      (nameViolationInOption around (line + 2 + (linesOf 0 yes).length) no)
  | .loop _ body => nameViolationIn around (line + 1) body
  | .nonlocals names => (names.find? (!around.contains ·)).map fun x =>
      ⟨"no binding for nonlocal '" ++ x ++ "' found", line⟩
  | .define _ _ params body =>
    -- The declarations of the function itself are checked against the functions around it.
    (nameViolationAt around (line + 1) body).or
      (nameViolationIn (localNames params body ++ around) (line + 1) body)
  | _ => none

/-- The violations of the declarations at the start of a function body. -/
def nameViolationAt (around : List String) (line : Nat) : List Stmt → Option Violation
  | [] => none
  | s :: rest => match s with
    | .nonlocals _ => s.nameViolation around line
    | .globals _ => nameViolationAt around (line + 1) rest
    | _ => none

def nameViolationIn (around : List String) (line : Nat) : List Stmt → Option Violation
  | [] => none
  | s :: rest => (s.nameViolation around line).or
      (nameViolationIn around (line + (s.lines 0).length) rest)

def nameViolationInOption (around : List String) (line : Nat) : Option (List Stmt) → Option Violation
  | none => none
  | some body => nameViolationIn around line body

end

/-- The first rule that the code of a module breaks. -/
def Module.violation? (m : Module) : Option Violation :=
  (paramViolationIn 2 m.body).or (nameViolationIn [] 2 m.body)

end Fragment.Target
