import Fragment.Value.Basic
import Fragment.Double.Read
import Fragment.Text.Blank

/-! Conversions between values: to text, to number, to a truth value.
The text of an array joins the texts of its elements, so it needs the store; an array that contains
itself has no text. -/
namespace Fragment.Value

/-- What `typeof` says about a value. -/
inductive Kind where
  | undefined
  | boolean
  | number
  | text
  | function
  | object
  deriving DecidableEq

def Kind.name : Kind → String
  | .undefined => "undefined"
  | .boolean => "boolean"
  | .number => "number"
  | .text => "string"
  | .function => "function"
  | .object => "object"

def kind : Value → Kind
  | .undefined => .undefined
  | .bool _ => .boolean
  | .number _ => .number
  | .text _ => .text
  | .function _ => .function
  | .array _ | .object _ | .promise _ => .object

/-- The text of a value, looking into arrays nested up to the given depth. -/
def textWithin (s : Store) : Nat → Value → Except Fault String
  | _, .undefined => .ok "undefined"
  | _, .bool b => .ok (if b then "true" else "false")
  | _, .number n => n.sourceText
  | _, .text t => .ok t
  | 0, .array _ => .error .recursion
  | depth + 1, .array ref => do
    let texts ← (s.array ref).toList.mapM fun item => match item with
      | .undefined => pure ""
      | item => textWithin s depth item
    return String.intercalate "," texts
  | _, .object _ => .ok "[object Object]"
  | _, .function _ => .ok "function () \x7b [native code] \x7d"
  | _, .promise _ => .ok "[object Promise]"

/-- The text of a value. Arrays that do not contain themselves are nested less deeply than there
are arrays. -/
def toText (s : Store) (v : Value) : Except Fault String := textWithin s (s.arrays.size + 1) v

/-- Reads an integer in hexadecimal, octal or binary spelling, without the leading `0`. -/
def radixNumber? : List Char → Option (Option Nat)
  | c :: digits =>
    let hex := !digits.isEmpty && digits.all fun d =>
      ('0' ≤ d && d ≤ '9') || ('a' ≤ d && d ≤ 'f') || ('A' ≤ d && d ≤ 'F')
    if !hex then none
    else if c = 'x' || c = 'X' then some (Double.readInteger? 16 digits)
    else if c = 'o' || c = 'O' then some (Double.readInteger? 8 digits)
    else if c = 'b' || c = 'B' then some (Double.readInteger? 2 digits)
    else none
  | [] => none

/-- The number that a decimal spelling stands for: an integer if it has digits only. -/
def decimalNumber? (cs : List Char) : Option (Except Fault Number) :=
  let (sign, rest) := Double.takeSign cs
  let negative := sign == ['-']
  let (spelled, tail) := Double.takeUnsigned rest
  if spelled.isEmpty || !tail.isEmpty then none
  else if spelled.all Text.isDecimalDigit then
    some <| match Double.readInteger? 10 spelled with
      | some n => .ok (.int (if negative then -(n : Int) else n))
      | none => .error (Double.integerFault 10 spelled)
  else some (.ok (.float (Double.readUnsigned negative spelled)))

/-- The number that a text stands for: white space around it does not count, and the empty text is
zero. -/
def numberOfText (t : String) : Except Fault Number :=
  let cs := Text.trim t.toList
  let spelled := String.ofList cs
  if cs.isEmpty then .ok (.int 0)
  else if spelled = "Infinity" || spelled = "+Infinity" then .ok (Number.infinity false)
  else if spelled = "-Infinity" then .ok (Number.infinity true)
  else
    let prefixed := match cs with
      | '0' :: rest => radixNumber? rest
      | _ => none
    match prefixed with
    | some (some n) => .ok (.int n)
    | some none => .ok Number.nan
    | none => (decimalNumber? cs).getD (.ok Number.nan)

/-- The number of a value. -/
def toNumber (s : Store) : Value → Except Fault Number
  | .undefined => .ok Number.nan
  | .bool b => .ok (.int (if b then 1 else 0))
  | .number n => .ok n
  | .text t => numberOfText t
  | .array ref => do numberOfText (← toText s (.array ref))
  | .object _ | .function _ | .promise _ => .ok Number.nan

/-- A number cut off towards zero; NaN becomes zero. -/
def truncated : Number → Except Fault Whole
  | .int n => do
    let _ ← (Number.int n).toFloat
    return .finite n
  | .float x => match Double.floatKind x with
    | .nan => .ok (.finite 0)
    | .infinite negative => .ok (.infinite negative)
    | .finite b => .ok (.finite b.truncate)

/-- The value as a truncated number; `undefined` stands for the given default. -/
def toInteger (s : Store) (v : Value) (default : Int) : Except Fault Whole :=
  match v with
  | .undefined => .ok (.finite default)
  | v => do truncated (← toNumber s v)

/-- Whether a value counts as true. -/
def truthy : Value → Except Fault Bool
  | .undefined => .ok false
  | .bool b => .ok b
  | .number n => if n.isZero then .ok false else return !(← n.isNaN)
  | .text t => .ok (t ≠ "")
  | _ => .ok true

/-- Arrays, objects and functions become their texts, other values stay. -/
def toPrimitive (s : Store) (v : Value) : Except Fault Value :=
  match v with
  | .array _ | .object _ | .function _ => return .text (← toText s v)
  | v => .ok v

end Fragment.Value
