import Fragment.Value.Member

/-! Reading and writing properties and elements. -/
namespace Fragment.Value

/-- What a read finds: a value, or a member function still to be bound to its receiver. -/
inductive Found where
  | value (v : Value)
  | member (m : Member)

/-- The property name that a key stands for. -/
def propertyKey (s : Store) (key : Value) : Except Fault String := toText s key

/-- The position that a text of digits stands for. Digit signs without place value stand for none
and cannot be read. -/
def positionOfText (t : String) : Except Fault (Option Int) :=
  let cs := t.toList
  if cs.isEmpty || !cs.all Text.isDigitSign then .ok none
  else match Double.readInteger? 10 cs with
    | some n => .ok (some n)
    | none => .error (Double.integerFault 10 cs)

/-- The position in an array or text that a key stands for: an integral number, or digits. -/
def position? : Value → Except Fault (Option Int)
  | .number (.int n) => do
    let _ ← (Number.int n).toFloat
    return some n
  | .number (.float x) => .ok (if Double.isIntegral x then Double.truncate? x else none)
  | .text t => positionOfText t
  | _ => .ok none

/-- The item at a position; a negative position counts from the end. -/
def itemAt {α : Type} (items : Array α) (pos : Int) : Except Fault (Option α) :=
  if 0 ≤ pos then .ok items[pos.toNat]?
  else if 0 ≤ pos + items.size then .ok items[(pos + items.size).toNat]?
  else .error .index

/-- The character at a position, as a text. -/
def charAt (t : String) (pos : Int) : Except Fault Value :=
  return match (← itemAt t.toList.toArray pos) with
    | some c => .text (String.singleton c)
    | none => .undefined

/-- The element at a position. -/
def elementAt (items : Array Value) (pos : Int) : Except Fault Value :=
  return (← itemAt items pos).getD .undefined

/-- Reads the property `key` of a value. -/
def getMember (s : Store) (target : Value) (key : String) : Except Fault Found := do
  match target with
  | .undefined => throw (.member ("Cannot read properties of undefined (reading '" ++ key ++ "')"))
  | .object ref => return .value (((s.object ref).get? key).getD .undefined)
  | .text t =>
    if key = "length" then return .value (.int t.length)
    match Member.ofText? key with
    | some m => return .member m
    | none => match (← positionOfText key) with
      | some pos => return .value (← charAt t pos)
      | none => return .value .undefined
  | .bool _ => return (Member.ofBool? key).elim (.value .undefined) .member
  | .number _ => return (Member.ofNumber? key).elim (.value .undefined) .member
  | .array ref =>
    let items := s.array ref
    if key = "length" then return .value (.int items.size)
    match (← positionOfText key) with
    | some pos => return .value (← elementAt items pos)
    | none => return .value .undefined
  | .function _ | .promise _ => return .value .undefined

/-- Reads `target[key]`. -/
def index (s : Store) (target key : Value) : Except Fault Found := do
  let found ← match target with
    | .array ref => match (← position? key) with
      | some pos => pure (some (← elementAt (s.array ref) pos))
      | none => pure none
    | .text t => match (← position? key) with
      | some pos => pure (some (← charAt t pos))
      | none => pure none
    | _ => pure none
  match found with
  | some v => return .value v
  | none => getMember s target (← propertyKey s key)

/-- A change of the store. -/
inductive Write where
  | nothing
  | field (ref : Nat) (key : String) (v : Value)
  | element (ref pos : Nat) (v : Value)
  | resize (ref size : Nat)
  /-- All elements of an array go; only then its new length turns out to be out of range. -/
  | emptied (ref : Nat)

/-- The items with one of them set; places before it that were not there are `undefined`. -/
def setItem (items : Array Value) (pos : Nat) (v : Value) : Array Value :=
  if pos < items.size then items.setIfInBounds pos v
  else (items ++ Array.replicate (pos - items.size) Value.undefined).push v

/-- The first items, filled up with `undefined` to a size. -/
def resized (items : Array Value) (size : Nat) : Array Value :=
  items.extract 0 size ++ Array.replicate (size - items.size) Value.undefined

def Write.apply (s : Store) : Write → Store
  | .nothing => s
  | .field ref key v => s.modifyObject ref (·.set key v)
  | .element ref pos v => s.modifyArray ref (setItem · pos v)
  | .resize ref size => s.modifyArray ref (resized · size)
  | .emptied ref => s.modifyArray ref fun _ => #[]

/-- How a write ends once its change is made. -/
def Write.ending : Write → Except Fault Unit
  | .emptied _ => .error .overflow
  | _ => .ok ()

/-- Whether so many items can be added to an array. -/
def checkRoom (missing : Nat) : Except Fault Unit :=
  if sizeLimit < missing then .error .overflow
  else if memoryLimit < missing then .error .memory
  else .ok ()

/-- The change that gives the array `ref` of `count` elements a new length; a negative length drops
elements from the end. -/
def resizeWrite (ref count : Nat) (size : Int) : Except Fault Write := do
  checkRoom (size - count).toNat
  if sizeLimit + 1 < (-size).toNat then return .emptied ref
  return .resize ref (if size < 0 then (count + size).toNat else size.toNat)

/-- The change that sets an element of the array `ref` of `count` elements; a negative position
counts from the end. -/
def elementWrite (ref count : Nat) (pos : Int) (v : Value) : Except Fault Write := do
  checkRoom (pos + 1 - count).toNat
  if 0 ≤ pos then return .element ref pos.toNat v
  else if 0 ≤ pos + count then return .element ref (pos + count).toNat v
  else throw .index

/-- The change that `target[key] = v` makes. Writes to primitive values and functions have no
effect. -/
def writeMember (s : Store) (target key v : Value) : Except Fault Write := do
  match target with
  | .undefined =>
    throw (.member ("Cannot set properties of undefined (setting '" ++ (← propertyKey s key) ++ "')"))
  | .object ref => return .field ref (← propertyKey s key) v
  | .array ref =>
    let count := (s.array ref).size
    if let .text "length" := key then
      return ← resizeWrite ref count (← (← toInteger s v 0).toInt)
    match (← position? key) with
    | some pos => elementWrite ref count pos v
    | none => throw (.member ("Cannot set property '" ++ (← propertyKey s key) ++ "' of an array"))
  | _ => return .nothing

/-- Writes `target[key] = v`: how that ends, and the store after it. -/
def setMember (s : Store) (target key v : Value) : Except Fault Unit × Store :=
  match writeMember s target key v with
  | .ok change => (change.ending, change.apply s)
  | .error f => (.error f, s)

/-- The number of characters, elements or fields. -/
def length (s : Store) : Value → Except Fault Nat
  | .text t => .ok t.length
  | .array ref => .ok (s.array ref).size
  | .object ref => .ok (s.object ref).length
  | _ => .error .kind

end Fragment.Value
