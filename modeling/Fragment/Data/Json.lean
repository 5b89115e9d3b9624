import Fragment.Data
import Fragment.Value.Basic

/-! Plain data as a JSON document, on one line or indented by two blanks a level.
Numbers keep their kind: an integer has no point, a double always shows that it is one, and NaN and
the infinities have names. -/
namespace Fragment.Data

/-- How a document is laid out. -/
inductive Layout where
  | line
  | indented
  deriving DecidableEq

/-- A number of a document. -/
def numberJson : Number → Except Fault String
  | .int n => if (Number.int n).isWritable then .ok (toString n) else .error Number.tooLong
  | .float x => .ok <| match Double.floatKind x with
    | .nan => "NaN"
    | .infinite negative => if negative then "-Infinity" else "Infinity"
    | .finite _ => Double.valueText x

/-- What stands between two members of a container at a depth. -/
def separator (layout : Layout) (depth : Nat) : String :=
  match layout with
  | .line => ", "
  | .indented => ",\n" ++ String.join (List.replicate depth "  ")

/-- A container, given its brackets and the members in it; `depth` counts the containers around them. -/
def enclose (layout : Layout) (depth : Nat) (start stop : String) (members : List String) : String :=
  let indent (n : Nat) : String := match layout with
    | .line => ""
    | .indented => "\n" ++ String.join (List.replicate n "  ")
  if members.isEmpty then start ++ stop
  else start ++ indent depth ++ String.intercalate (separator layout depth) members ++ indent (depth - 1) ++ stop

mutual

/-- The document that stands inside `depth` containers. -/
def jsonWithin (layout : Layout) (depth : Nat) : Data → Except Fault String
  | .null => .ok "null"
  | .bool b => .ok (if b then "true" else "false")
  | .number n => numberJson n
  | .text t => .ok (Text.jsonQuoted true t)
  | .list items => return enclose layout (depth + 1) "[" "]" (← jsonItems layout (depth + 1) items)
  | .record fields => return enclose layout (depth + 1) "\x7b" "\x7d" (← jsonFields layout (depth + 1) fields)

/-- The members of a list. -/
def jsonItems (layout : Layout) (depth : Nat) : List Data → Except Fault (List String)
  | [] => .ok []
  | item :: rest => do
    let text ← jsonWithin layout depth item
    return text :: (← jsonItems layout depth rest)

/-- The members of a record. -/
def jsonFields (layout : Layout) (depth : Nat) : List (String × Data) → Except Fault (List String)
  | [] => .ok []
  | (key, value) :: rest => do
    let text ← jsonWithin layout depth value
    return (Text.jsonQuoted true key ++ ": " ++ text) :: (← jsonFields layout depth rest)

end

/-- The data as a JSON document. -/
def json (layout : Layout) (d : Data) : Except Fault String := jsonWithin layout 0 d

end Fragment.Data

namespace Fragment.Value

/-- The data that a value is, with containers nested up to the given depth. Functions and promises are
no data. -/
def dataWithin (s : Store) : Nat → Value → Except Fault Data
  | _, .undefined => .ok .null
  | _, .bool b => .ok (.bool b)
  | _, .number n => .ok (.number n)
  | _, .text t => .ok (.text t)
  | _, .function _ => .error .kind
  | _, .promise _ => .error .kind
  | 0, _ => .error (.value "Circular reference detected")
  | depth + 1, .array ref => return .list (← (s.array ref).toList.mapM (dataWithin s depth))
  | depth + 1, .object ref => do
    let fields ← (s.object ref).mapM fun (key, v) => return (key, ← dataWithin s depth v)
    return .record fields

/-- The data that a value is. Containers that do not contain themselves are nested no deeper than there
are containers. -/
def toData (s : Store) (v : Value) : Except Fault Data :=
  dataWithin s (s.arrays.size + s.objects.size) v

end Fragment.Value
