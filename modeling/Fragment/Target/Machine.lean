import Fragment.Target.Operators
import Fragment.Target.Text
import Fragment.Value.Equality
import Fragment.Value.Library

/-! Running generated code.
The world holds arrays and objects, functions, promises and the variables of each call that has
been made. A function knows the calls around the place where it was defined, so it sees their
variables as they are when it reads them. A promise is a call that runs when it is awaited, which
can happen once. -/
namespace Fragment.Target

/-- The variables of one call, as far as they have values. -/
abbrev Frame := List (String × Value)

/-- A call around a definition: its frame, the names that are its variables, and the names that it
and the functions in it take from the outermost level. -/
structure Scope where
  frame : Nat
  names : List String
  globals : List String

/-- A function. -/
inductive Callable where
  /-- `names` are the variables of each of its calls. -/
  | closure (isAsync : Bool) (params : List Param) (names : List String) (body : List Stmt) (around : List Scope)
  | library (f : Value.LibraryFunction)
  | member (m : Value.Member) (receiver : Value)
  /-- A function that does nothing. -/
  | inert

/-- A promise: the body still to be run in its scopes, or nothing once it was awaited. -/
inductive Promise where
  | ready (body : List Stmt) (scopes : List Scope)
  | spent

/-- Everything that running code can see or change. -/
structure World where
  store : Store := {}
  functions : Array Callable := #[]
  promises : Array Promise := #[]
  frames : Array Frame := #[]
  globals : Frame := []
  /-- The lines printed, last first. -/
  printed : List String := []
  /-- How many calls are running. -/
  callDepth : Nat := 0

/-- The text printed, line by line. -/
def World.output (w : World) : String := String.join (w.printed.reverse.map (· ++ "\n"))

/-- A computation in the world that may stop with a fault. -/
abbrev Run := EStateM Fault World

/-- How many calls may be running at a time. -/
def callLimit : Nat := 960

namespace Run

def lift {α : Type} (r : Except Fault α) : Run α :=
  match r with
  | .ok a => pure a
  | .error f => throw f

def store : Run Store := return (← get).store

def newArray (items : Array Value) : Run Value :=
  modifyGet fun w => match w.store.newArray items with
    | (v, s) => (v, { w with store := s })

def newObject (fields : Fields) : Run Value :=
  modifyGet fun w => match w.store.newObject fields with
    | (v, s) => (v, { w with store := s })

/-- The value that an operation gives. -/
def produce (r : Except Fault Produced) : Run Value := do
  match (← lift r) with
  | .value v => return v
  | .array items => newArray items

def newFunction (f : Callable) : Run Value :=
  modifyGet fun w => (.function w.functions.size, { w with functions := w.functions.push f })

def newPromise (p : Promise) : Run Value :=
  modifyGet fun w => (.promise w.promises.size, { w with promises := w.promises.push p })

def newFrame (f : Frame) : Run Nat :=
  modifyGet fun w => (w.frames.size, { w with frames := w.frames.push f })

/-- A found member becomes a function bound to its receiver. -/
def found (receiver : Value) (f : Except Fault Value.Found) : Run Value := do
  match (← lift f) with
  | .value v => return v
  | .member m => newFunction (.member m receiver)

/-- Writes a property. What the write has changed stays changed when it fails. -/
def setMember (target key v : Value) : Run Unit := do
  let ending ← modifyGet fun w => match Value.setMember w.store target key v with
    | (ending, s) => (ending, { w with store := s })
  lift ending

end Run

/-- The variable with its new value. -/
def Frame.put : Frame → String → Value → Frame
  | [], x, v => [(x, v)]
  | (y, w) :: rest, x, v => if y == x then (y, v) :: rest else (y, w) :: Frame.put rest x v

/-- The frame of the nearest call that has a variable, unless a nearer one takes the name from the
outermost level. -/
def frameOf? : List Scope → String → Option Nat
  | [], _ => none
  | s :: rest, x =>
    if s.names.contains x then some s.frame
    else if s.globals.contains x then none
    else frameOf? rest x

/-- The frame that holds a name, and whether it is that of the running call. -/
def holder? (scopes : List Scope) (x : String) : Option (Nat × Bool) :=
  (frameOf? scopes x).map (·, scopes.head?.any (·.names.contains x))

/-- Reads a variable. -/
def readName (scopes : List Scope) (x : String) : Run Value := do
  let w ← get
  match holder? scopes x with
  | some (frame, own) => match (w.frames.getD frame []).lookup x with
    | some v => return v
    | none => throw (if own then .unboundLocal else .name)
  | none => match w.globals.lookup x with
    | some v => return v
    | none => throw .name

/-- Writes a variable. -/
def writeName (scopes : List Scope) (x : String) (v : Value) : Run Unit :=
  modify fun w => match holder? scopes x with
    | some (frame, _) => { w with frames := w.frames.modify frame (Frame.put · x v) }
    | none => { w with globals := w.globals.put x v }

/-- How a statement ended. -/
inductive Flow where
  | next
  | brk
  | cont
  | ret (v : Value)

/-- Gives the parameters their arguments. A parameter after the rest takes no argument. -/
def bindParams (args : List Value) : List Param → Run Frame
  | [] => if args.isEmpty then pure [] else throw .kind
  | p :: rest => match p.mode, args with
    | .required, v :: args => return (p.name, v) :: (← bindParams args rest)
    | .required, [] => throw .kind
    | .optional, v :: args => return (p.name, v) :: (← bindParams args rest)
    | .optional, [] => return (p.name, .undefined) :: (← bindParams [] rest)
    | .rest, args => do
      let v ← Run.newArray args.toArray
      return (p.name, v) :: (← bindParams [] rest)

/-- Calls a helper. -/
def callHelper (h : Helper) (args : List Value) : Run Value := do
  let s ← Run.store
  match h, args with
  | .toNumber, [v] => return .number (← Run.lift (Value.toNumber s v))
  | .truthy, [v] => return .bool (← Run.lift (Value.truthy v))
  | .typeOf, [v] => return .text v.kind.name
  | .concat, [a, b] => return .text (← Run.lift (Value.concat s a b))
  | .add, [a, b] => Run.lift (Value.add s a b)
  | .divide, [a, b] => return .float (← Run.lift (Value.divide s a b))
  | .remainder, [a, b] => return .number (← Run.lift (Value.remainder s a b))
  | .power, [a, b] => return .number (← Run.lift (Value.power s a b))
  | .strictEquals, [a, b] => return .bool (Value.strictEquals a b)
  | .looseEquals, [a, b] => return .bool (← Run.lift (Value.looseEquals s a b))
  | .getMember, [target, .text key] => Run.found target (Value.getMember s target key)
  | .index, [target, key] => Run.found target (Value.index s target key)
  | .setMember, [target, key, v] => do
    Run.setMember target key v
    return v
  | .length, [v] => return .int (← Run.lift (Value.length s v))
  | _, _ => throw .kind

/-- Repeats the body while the test holds. -/
def repeatWhile (test : Run Bool) (body : Run Flow) : Nat → Run Flow
  | 0 => throw .exhausted
  | fuel + 1 => do
    if (← test) then
      match (← body) with
      | .brk => return .next
      | .ret v => return .ret v
      | _ => repeatWhile test body fuel
    else return .next

/-- What code asks of the machine around it: calls, and the results of promises. -/
structure Outside where
  call : Value → List Value → Run Value
  await : Value → Run Value

mutual

/-- The value of an expression. -/
def eval (o : Outside) (scopes : List Scope) : Expr → Run Value
  | .none => return .undefined
  | .bool b => return .bool b
  | .number n => return .number n.spelled
  | .text t => return .text t
  | .name x => readName scopes x
  | .dict entries => do
    let fields ← evalEntries o scopes [] entries
    Run.newObject fields
  | .list items => do
    let vs ← evalAll o scopes items
    Run.newArray vs.toArray
  | .subscript target key => do
    let v ← eval o scopes target
    Run.lift (subscript (← Run.store) v key)
  | .call callee args => do
    let f ← eval o scopes callee
    let vs ← evalAll o scopes args
    o.call f vs
  | .helper h args => do callHelper h (← evalAll o scopes args)
  | .truthyBind x value => do
    let v ← eval o scopes value
    writeName scopes x v
    return .bool (← Run.lift (Value.truthy v))
  | .await value => do o.await (← eval o scopes value)
  | .negate operand => do
    let v ← eval o scopes operand
    Run.lift (negate v)
  | .not operand => do
    let v ← eval o scopes operand
    return .bool !(isTrue (← Run.store) v)
  | .binary op left right => do
    let a ← eval o scopes left
    let b ← eval o scopes right
    Run.produce (op.apply (← Run.store) a b)
  | .and left right => do
    let a ← eval o scopes left
    if isTrue (← Run.store) a then eval o scopes right else return a
  | .or left right => do
    let a ← eval o scopes left
    if isTrue (← Run.store) a then return a else eval o scopes right
  | .cond test yes no => do
    let v ← eval o scopes test
    if isTrue (← Run.store) v then eval o scopes yes else eval o scopes no
  | .bind x value => do
    let v ← eval o scopes value
    writeName scopes x v
    return v

/-- The values of some expressions, from left to right. -/
def evalAll (o : Outside) (scopes : List Scope) : List Expr → Run (List Value)
  | [] => return []
  | e :: rest => do
    let v ← eval o scopes e
    return v :: (← evalAll o scopes rest)

/-- The fields of an object, behind those already made; a repeated name sets its field again. -/
def evalEntries (o : Outside) (scopes : List Scope) (fields : Fields) : List (String × Expr) → Run Fields
  | [] => return fields
  | (key, e) :: rest => do
    let v ← eval o scopes e
    evalEntries o scopes (fields.set key v) rest

end

mutual

/-- Runs a statement; `fuel` bounds the rounds of a loop. -/
def exec (o : Outside) (fuel : Nat) (scopes : List Scope) : Stmt → Run Flow
  | .assign x value => do
    writeName scopes x (← eval o scopes value)
    return .next
  | .expr value => do
    let _ ← eval o scopes value
    return .next
  | .ret value => return .ret (← eval o scopes value)
  | .cond test yes no => do
    let v ← eval o scopes test
    if isTrue (← Run.store) v then execAll o fuel scopes yes else execElse o fuel scopes no
  | .loop test body =>
    repeatWhile (do
      let v ← eval o scopes test
      return isTrue (← Run.store) v) (execAll o fuel scopes body) fuel
  | .brk => return .brk
  | .cont => return .cont
  | .pass | .globals _ | .nonlocals _ => return .next
  | .collect x => do
    match (← readName scopes x) with
    | .array ref =>
      writeName scopes x (← Run.newArray ((← Run.store).array ref))
    | _ => throw .kind
    return .next
  | .define name isAsync params body => do
    writeName scopes name (← Run.newFunction (.closure isAsync params (localNames params body) body scopes))
    return .next

/-- Runs some statements until one of them leaves. -/
def execAll (o : Outside) (fuel : Nat) (scopes : List Scope) : List Stmt → Run Flow
  | [] => return .next
  | s :: rest => do
    match (← exec o fuel scopes s) with
    | .next => execAll o fuel scopes rest
    | flow => return flow

/-- Runs the branch of a condition that does not hold, if there is one. -/
def execElse (o : Outside) (fuel : Nat) (scopes : List Scope) : Option (List Stmt) → Run Flow
  | some no => execAll o fuel scopes no
  | none => return .next

end

/-- Runs the body of a function; without a return its result is undefined. -/
def runBody (o : Outside) (fuel : Nat) (body : List Stmt) (scopes : List Scope) : Run Value := do
  let depth := (← get).callDepth
  if callLimit ≤ depth then throw .recursion
  modify fun w => { w with callDepth := depth + 1 }
  let flow ← execAll o fuel scopes body
  modify fun w => { w with callDepth := depth }
  match flow with
  | .ret v => return v
  | _ => return .undefined

/-- Calls a function with arguments. -/
def callFunction (o : Outside) (fuel : Nat) (f : Callable) (args : List Value) : Run Value := do
  match f with
  | .closure isAsync params names body around =>
    let frame ← Run.newFrame (← bindParams args params)
    let scopes := ⟨frame, names, globalNames body⟩ :: around
    if isAsync then Run.newPromise (.ready body scopes) else runBody o fuel body scopes
  | .library f =>
    let (v, line) ← Run.lift (f.call (← Run.store) args)
    match line with
    | some t => modify fun w => { w with printed := t :: w.printed }
    | none => pure ()
    return v
  | .member m receiver => Run.produce (Value.callMember (← Run.store) m receiver args)
  | .inert => return .undefined

/-- The body behind a promise, which is spent with that. -/
def takePromise (ref : Nat) : Run (List Stmt × List Scope) := do
  match (← get).promises[ref]? with
  | some (.ready body scopes) =>
    modify fun w => { w with promises := w.promises.setIfInBounds ref .spent }
    return (body, scopes)
  | _ => throw .awaitedTwice

/-- The machine with a bound on the calls inside one another and on the rounds of their loops. -/
def outside : (fuel : Nat) → Outside
  | 0 => ⟨fun _ _ => throw .exhausted, fun _ => throw .exhausted⟩
  | fuel + 1 =>
    { call := fun f args => do
        match f with
        | .function ref =>
          match (← get).functions[ref]? with
          | some f => callFunction (outside fuel) fuel f args
          | none => throw .kind
        | _ => throw .kind
      -- The result behind a promise, however many promises stand in front of it.
      await := fun v => do
        match v with
        | .promise ref =>
          let (body, scopes) ← takePromise ref
          (outside fuel).await (← runBody (outside fuel) fuel body scopes)
        | v => return v }

/-- Calls a value with arguments. -/
def call (fuel : Nat) : Value → List Value → Run Value := (outside fuel).call

/-- Enough steps for anything that ends in reasonable time. -/
def runFuel : Nat := Nat.pow 2 40

/-- The function of a library, of which each exists once. -/
def libraryFunction (f : Value.LibraryFunction) : Run Value := do
  let same : Callable → Bool
    | .library g => f = g
    | _ => false
  match (← get).functions.findIdx? same with
  | some ref => return .function ref
  | none => Run.newFunction (.library f)

/-- The value of a library binding. -/
def bindingValue (b : Value.Binding) : Run Value := do
  match b with
  | .number n => return .number n
  | .text t => return .text t
  | .function f => libraryFunction f
  | .object fields =>
    let fields ← fields.mapM fun (key, b) => do
      let v ← match b with
        | .number n => pure (Value.number n)
        | .text t => pure (Value.text t)
        | .function f => libraryFunction f
        | .object _ => pure Value.undefined
      return (key, v)
    Run.newObject fields

/-- Binds the names of some libraries at the outermost level. -/
def bindLibraries (names : List String) : Run Unit := do
  for (name, b) in (← Run.lift (Value.libraryBindings names)) do
    let v ← bindingValue b
    modify fun w => { w with globals := w.globals.put name v }

/-- The result of a promise, which may be a promise again; other values stand for themselves. -/
def awaitOnce (v : Value) : Run Value := do
  match v with
  | .promise ref =>
    let (body, scopes) ← takePromise ref
    runBody (outside runFuel) runFuel body scopes
  | v => return v

/-- A call from outside, after whatever happened before. A promise that it returns is awaited. -/
def callFromOutside (f : Value) (args : List Value) : Run Value := do
  modify fun w => { w with callDepth := 0 }
  awaitOnce (← call runFuel f args)

/-- Runs a module with the bindings of some libraries and gives its completion value. -/
def Module.run (m : Module) (libraries : List String) : Run Value := do
  bindLibraries libraries
  let _ ← execAll (outside runFuel) runFuel [] m.body
  readName [] completionName

end Fragment.Target
