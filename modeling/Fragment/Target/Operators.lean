import Fragment.Target.Code
import Fragment.Value.Access

/-! What the operators of generated code do with values of any kind.
Truth values count as the integers zero and one; lists compare item by item. -/
namespace Fragment.Target

/-- Whether a value counts as true in a bare condition: it is not empty and not zero. -/
def isTrue (s : Store) : Value → Bool
  | .undefined => false
  | .bool b => b
  | .number n => !n.isZero
  | .text t => t ≠ ""
  | .array ref => !(s.array ref).isEmpty
  | .object ref => !(s.object ref).isEmpty
  | .function _ | .promise _ => true

/-- The number that a value is, where truth values are numbers. -/
def asNumber? : Value → Option Number
  | .bool b => some (.int (if b then 1 else 0))
  | .number n => some n
  | _ => none

/-- Whether the items of two lists are equal one by one. -/
def allEqual (equal : Value → Value → Except Fault Bool) : List Value → List Value → Except Fault Bool
  | [], [] => .ok true
  | a :: as, b :: bs => do if (← equal a b) then allEqual equal as bs else return false
  | _, _ => .ok false

/-- Whether each field has an equal one of the same name. -/
def fieldsEqual (equal : Value → Value → Except Fault Bool) (other : Fields) : Fields → Except Fault Bool
  | [] => .ok true
  | (key, v) :: rest => match other.get? key with
    | none => .ok false
    | some w => do if (← equal v w) then fieldsEqual equal other rest else return false

/-- Equality of values, looking into lists and objects nested up to the given depth. -/
def equalWithin (s : Store) : Nat → Value → Value → Except Fault Bool
  | _, .undefined, .undefined => .ok true
  | _, .text a, .text b => .ok (a == b)
  | _, .function a, .function b => .ok (a == b)
  | _, .promise a, .promise b => .ok (a == b)
  | depth, .array a, .array b =>
    if a = b then .ok true
    else match depth with
      | 0 => .error .recursion
      | depth + 1 => allEqual (equalWithin s depth) (s.array a).toList (s.array b).toList
  | depth, .object a, .object b =>
    if a = b then .ok true
    else match depth with
      | 0 => .error .recursion
      | depth + 1 =>
        if (s.object a).length = (s.object b).length then
          fieldsEqual (equalWithin s depth) (s.object b) (s.object a)
        else .ok false
  | _, a, b => match asNumber? a, asNumber? b with
    | some a, some b => .ok (a.equals b)
    | _, _ => .ok false

def depthLimit (s : Store) : Nat := s.arrays.size + s.objects.size + 1

/-- `==`. -/
def valuesEqual (s : Store) (a b : Value) : Except Fault Bool := equalWithin s (depthLimit s) a b

/-- An order relation. -/
inductive OrderOp where
  | less | greater | lessEqual | greaterEqual

/-- Whether an ordering satisfies the relation. -/
def OrderOp.holds : OrderOp → Ordering → Bool
  | .less, o => o == .lt
  | .greater, o => o == .gt
  | .lessEqual, o => o != .gt
  | .greaterEqual, o => o != .lt

/-- The order of two lists: that of the first items that differ, or else of the lengths. -/
def orderItems (equal : Value → Value → Except Fault Bool) (order : Value → Value → Except Fault Bool)
    (op : OrderOp) : List Value → List Value → Except Fault Bool
  | a :: as, b :: bs => do
    if (← equal a b) then orderItems equal order op as bs else order a b
  | as, bs => .ok (op.holds (compare as.length bs.length))

/-- An order relation of values, looking into lists nested up to the given depth. -/
def orderWithin (s : Store) (op : OrderOp) : Nat → Value → Value → Except Fault Bool
  | _, .text a, .text b => .ok (op.holds (compare a b))
  | depth, .array a, .array b => match depth with
    | 0 => .error .recursion
    | depth + 1 =>
      orderItems (valuesEqual s) (orderWithin s op depth) op (s.array a).toList (s.array b).toList
  | _, a, b => match asNumber? a, asNumber? b with
    | some a, some b => .ok ((a.compare? b).any op.holds)
    | _, _ => .error .kind

def order (s : Store) (op : OrderOp) (a b : Value) : Except Fault Bool := orderWithin s op (depthLimit s) a b

/-- A list repeated. -/
def repeatList (items : Array Value) (times : Int) : Except Fault (Array Value) :=
  if Value.exceedsSize times then .error .overflow
  else if Value.memoryLimit < items.size * times.toNat then .error .memory
  else .ok (Nat.repeat (· ++ items) times.toNat #[])

/-- The integer that a value is, for a number of repetitions. -/
def asCount? : Value → Option Int
  | .bool b => some (if b then 1 else 0)
  | .number (.int n) => some n
  | _ => none

/-- A text repeated. -/
def repeatText (t : String) (times : Int) : Except Fault Value :=
  return .text (String.ofList (← Value.repeatChars t.toList times))

/-- Applies an operator to two values. -/
def Operator.apply (op : Operator) (s : Store) (a b : Value) : Except Fault Produced :=
  let scalar (r : Except Fault Value) : Except Fault Produced := r.map .value
  let test (r : Except Fault Bool) : Except Fault Produced := r.map fun b => .value (.bool b)
  let arith (f : Number → Number → Except Fault Number) : Except Fault Produced :=
    match asNumber? a, asNumber? b with
    | some a, some b => scalar ((f a b).map .number)
    | _, _ => .error .kind
  match op with
  | .add => match a, b with
    | .text a, .text b => .ok (.value (.text (a ++ b)))
    | .array a, .array b => .ok (.array (s.array a ++ s.array b))
    | _, _ => arith Number.add
  | .sub => arith Number.sub
  | .mul => match a, b with
    | .text t, n => match asCount? n with
      | some n => scalar (repeatText t n)
      | none => .error .kind
    | n, .text t => match asCount? n with
      | some n => scalar (repeatText t n)
      | none => .error .kind
    | .array ref, n => match asCount? n with
      | some n => (repeatList (s.array ref) n).map .array
      | none => .error .kind
    | n, .array ref => match asCount? n with
      | some n => (repeatList (s.array ref) n).map .array
      | none => .error .kind
    | _, _ => arith Number.mul
  | .less => test (order s .less a b)
  | .greater => test (order s .greater a b)
  | .lessEqual => test (order s .lessEqual a b)
  | .greaterEqual => test (order s .greaterEqual a b)
  | .equal => test (valuesEqual s a b)
  | .notEqual => test ((valuesEqual s a b).map (!·))

/-- `-`. -/
def negate (v : Value) : Except Fault Value :=
  match asNumber? v with
  | some n => .ok (.number n.negate)
  | none => .error .kind

/-- Reads a field that has to be there. -/
def subscript (s : Store) (target : Value) (key : String) : Except Fault Value :=
  match target with
  | .object ref => match (s.object ref).get? key with
    | some v => .ok v
    | none => .error .key
  | _ => .error .kind

end Fragment.Target
