import Fragment.Value.Convert
import Fragment.Text.Case
import Fragment.Text.Search

/-! Member functions of texts, numbers and truth values.
A member is looked up by name on a primitive value and then called with arguments; it needs at
least and at most so many of them. -/
namespace Fragment.Value

/-- The member functions of primitive values. -/
inductive Member where
  | charAt | charCodeAt | concat | indexOf | lastIndexOf | replace | replaceAll | slice | split
  | substring | toLowerCase | toUpperCase | trim | trimStart | trimEnd | textToText | startsWith
  | endsWith | includes | repeated | padStart | padEnd
  | toFixed | numberToText | numberValue | boolToText | boolValue
  deriving DecidableEq

namespace Member

/-- The member of texts with this name. -/
def ofText? : String → Option Member
  | "charAt" => some .charAt
  | "charCodeAt" => some .charCodeAt
  | "concat" => some .concat
  | "indexOf" => some .indexOf
  | "lastIndexOf" => some .lastIndexOf
  | "replace" => some .replace
  | "replaceAll" => some .replaceAll
  | "slice" => some .slice
  | "split" => some .split
  | "substring" => some .substring
  | "toLowerCase" => some .toLowerCase
  | "toUpperCase" => some .toUpperCase
  | "trim" => some .trim
  | "trimStart" => some .trimStart
  | "trimEnd" => some .trimEnd
  | "toString" => some .textToText
  | "valueOf" => some .textToText
  | "startsWith" => some .startsWith
  | "endsWith" => some .endsWith
  | "includes" => some .includes
  | "repeat" => some .repeated
  | "padStart" => some .padStart
  | "padEnd" => some .padEnd
  | _ => none

/-- The member of numbers with this name. -/
def ofNumber? : String → Option Member
  | "toFixed" => some .toFixed
  | "toString" => some .numberToText
  | "valueOf" => some .numberValue
  | _ => none

/-- The member of truth values with this name. -/
def ofBool? : String → Option Member
  | "toString" => some .boolToText
  | "valueOf" => some .boolValue
  | _ => none

/-- The least number of arguments. -/
def least : Member → Nat
  | .indexOf | .lastIndexOf | .substring | .startsWith | .endsWith | .includes | .repeated
  | .padStart | .padEnd => 1
  | .replace | .replaceAll => 2
  | _ => 0

/-- The greatest number of arguments, if there is one. -/
def greatest? : Member → Option Nat
  | .concat => none
  | .charAt | .charCodeAt | .repeated | .toFixed | .numberToText => some 1
  | .indexOf | .lastIndexOf | .replace | .replaceAll | .slice | .split | .substring | .startsWith
  | .endsWith | .includes | .padStart | .padEnd => some 2
  | _ => some 0

end Member

/-- The value of a position argument, limited to the text. -/
def clampArg (s : Store) (v : Value) (default : Int) (length : Nat) : Except Fault Nat :=
  return (← toInteger s v default).clamp length

/-- The largest size of a list or text. -/
def sizeLimit : Nat := Nat.pow 2 63 - 1

/-- The largest size of a list or text that fits into memory. -/
def memoryLimit : Nat := Nat.pow 2 31

/-- Whether a number of repetitions is out of range, in either direction. -/
def exceedsSize (times : Int) : Bool := sizeLimit < times.toNat || sizeLimit + 1 < (-times).toNat

/-- A text repeated `times` times. -/
def repeatChars (cs : List Char) (times : Int) : Except Fault (List Char) :=
  if exceedsSize times then .error .overflow
  else if memoryLimit < cs.length * times.toNat then .error .memory
  else .ok (List.replicate times.toNat cs).flatten

/-- A text lengthened to a size with the characters of a filler. -/
def pad (s : Store) (cs : List Char) (size filler : Value) (atStart : Bool) : Except Fault (List Char) := do
  let target ← toInteger s size 0
  let filler ← match filler with
    | .undefined => pure [' ']
    | v => pure (← toText s v).toList
  if !target.greater cs.length || filler.isEmpty then return cs
  let missing := (← target.toInt) - cs.length
  let padding := (← repeatChars filler (missing / filler.length + 1)).take missing.toNat
  return if atStart then padding ++ cs else cs ++ padding

/-- The parts of a text; without a separator it is its only part. -/
def splitText (s : Store) (cs : List Char) (separator limit : Value) : Except Fault (List (List Char)) := do
  let parts ← match separator with
    | .undefined => pure [cs]
    | v =>
      let piece := (← toText s v).toList
      pure (if piece.isEmpty then cs.map ([·]) else Text.splitOn piece cs)
  match limit with
  | .undefined => return parts
  | v =>
    let count ← toInteger s v 0
    -- Of the two infinities only the positive one is a number of parts.
    if count.isInfinite && count.less 0 then throw .overflow
    return parts.take (count.clamp parts.length)

/-- The number of a text position, or `-1`. -/
def positionValue : Option Nat → Value
  | some pos => .int pos
  | none => .int (-1)

/-- A member of texts applied to its text and the arguments. -/
def callTextMember (s : Store) (m : Member) (t : String) (args : List Value) : Except Fault Produced := do
  let cs := t.toList
  let arg (i : Nat) : Value := args.getD i .undefined
  let give (v : Value) : Except Fault Produced := .ok (.value v)
  let text (out : List Char) : Except Fault Produced := give (.text (String.ofList out))
  match m with
  | .charAt => match (← toInteger s (arg 0) 0) with
    | .finite n => if n < 0 then text [] else text (cs.drop n.toNat |>.take 1)
    | .infinite _ => text []
  | .charCodeAt => match (← toInteger s (arg 0) 0) with
    | .finite n => match if n < 0 then none else cs[n.toNat]? with
      | some c => give (.int c.toNat)
      | none => give (.number Number.nan)
    | .infinite _ => give (.number Number.nan)
  | .concat =>
    let parts ← args.mapM (toText s)
    give (.text (t ++ String.join parts))
  | .indexOf =>
    let piece ← toText s (arg 0)
    let start ← clampArg s (arg 1) 0 cs.length
    give (positionValue (Text.find? piece.toList cs start))
  | .lastIndexOf =>
    let piece ← toText s (arg 0)
    let start ← match arg 1 with
      | .undefined => pure cs.length
      | v =>
        let n ← toNumber s v
        if (← n.isNaN) then pure cs.length else clampArg s v cs.length cs.length
    give (positionValue (Text.findLast? piece.toList cs (start + piece.length)))
  | .replace =>
    let piece ← toText s (arg 0)
    let replacement ← toText s (arg 1)
    text (Text.replaceFirst piece.toList replacement.toList cs)
  | .replaceAll =>
    let piece ← toText s (arg 0)
    let replacement ← toText s (arg 1)
    text (Text.replaceAll piece.toList replacement.toList cs)
  | .slice =>
    let start := (← toInteger s (arg 0) 0).relative cs.length
    let stop := (← toInteger s (arg 1) cs.length).relative cs.length
    text (Text.slice cs start stop)
  | .substring =>
    let start ← clampArg s (arg 0) 0 cs.length
    let stop ← clampArg s (arg 1) cs.length cs.length
    text (Text.slice cs (min start stop) (max start stop))
  | .split =>
    let parts ← splitText s cs (arg 0) (arg 1)
    return .array (parts.map fun p => Value.text (String.ofList p)).toArray
  | .toLowerCase => give (.text (Text.lower t))
  | .toUpperCase => give (.text (Text.upper t))
  | .trim => text (Text.trim cs)
  | .trimStart => text (Text.trimStart cs)
  | .trimEnd => text (Text.trimEnd cs)
  | .startsWith =>
    let piece ← toText s (arg 0)
    let start ← clampArg s (arg 1) 0 cs.length
    give (.bool (piece.toList.isPrefixOf (cs.drop start)))
  | .endsWith =>
    let stop ← clampArg s (arg 1) cs.length cs.length
    let piece ← toText s (arg 0)
    give (.bool (piece.toList.isSuffixOf (cs.take stop)))
  | .includes =>
    let piece ← toText s (arg 0)
    let start ← clampArg s (arg 1) 0 cs.length
    give (.bool (Text.contains piece.toList (cs.drop start)))
  | .repeated =>
    let times ← toInteger s (arg 0) 0
    if times.less 0 || times.isInfinite then
      throw (.argument ("Invalid count value: " ++ (← toText s (arg 0))))
    text (← repeatChars cs (← times.toInt))
  | .padStart => text (← pad s cs (arg 0) (arg 1) true)
  | .padEnd => text (← pad s cs (arg 0) (arg 1) false)
  | _ => give (.text t)

/-- A number with a fixed count of decimal places; a zero has no sign. -/
def fixedPlacesText (s : Store) (n : Number) (digits : Value) : Except Fault String := do
  let places ← toInteger s digits 0
  if places.less 0 || places.greater 100 then
    throw (.argument "toFixed() digits argument must be between 0 and 100")
  if (← n.isNaN) then return ← n.sourceText
  if (← n.isInfinite) then return ← n.sourceText
  if !n.abs.less (.int (Nat.pow 10 21)) then return ← n.sourceText
  let spelled := (Double.fixedText (← n.toFloat) (← places.toInt).toNat).toList
  match spelled with
  | '-' :: rest => return String.ofList (if rest.all fun c => c = '0' || c = '.' then rest else spelled)
  | _ => return String.ofList spelled

/-- The characters `0` to `9` and `a` to `z`, by their value. -/
def digitOfValue (d : Nat) : Char := if d < 10 then Char.ofNat (48 + d) else Char.ofNat (87 + d)

/-- The digits of an integer in a base, most significant first, with room for `fuel` digits. -/
def wholeDigits (base : Nat) : Nat → Nat → List Char → List Char
  | 0, _, rest => rest
  | fuel + 1, n, rest =>
    let rest := digitOfValue (n % base) :: rest
    if n / base = 0 then rest else wholeDigits base fuel (n / base) rest

/-- At most `fuel` digits of a fraction in a base. -/
def fractionDigits (base : Nat) : Nat → Float → List Char
  | 0, _ => []
  | fuel + 1, fraction =>
    let scaled := fraction * Float.ofNat base
    let digit := ((Double.truncate? scaled).getD 0).toNat
    let rest := scaled - Float.ofNat digit
    digitOfValue digit :: if rest == 0.0 then [] else fractionDigits base fuel rest

/-- A number in a base from 2 to 36. -/
def radixText (s : Store) (n : Number) (radix : Value) : Except Fault String := do
  let base ← toInteger s radix 10
  if base.less 2 || base.greater 36 then
    throw (.argument "toString() radix must be between 2 and 36")
  let base := (← base.toInt).toNat
  if base = 10 then return ← n.sourceText
  if (← n.isNaN) then return ← n.sourceText
  if (← n.isInfinite) then return ← n.sourceText
  let (whole, fraction) := match n.abs with
    | .int m => (m.toNat, (0.0 : Float))
    | .float x =>
      let m := ((Double.truncate? x).getD 0).toNat
      (m, x - (Double.ofInt? m).getD x)
  let digits := wholeDigits base (whole.log2 + 1) whole []
  let digits := if fraction == 0.0 then digits else digits ++ '.' :: fractionDigits base 52 fraction
  return String.ofList (if n.isBelowZero then '-' :: digits else digits)

/-- A member function applied to the primitive value it was read from. -/
def callMember (s : Store) (m : Member) (receiver : Value) (args : List Value) : Except Fault Produced := do
  if args.length < m.least then throw .kind
  if let some most := m.greatest? then
    if most < args.length then throw .kind
  match receiver, m with
  | .number n, .toFixed => return .value (.text (← fixedPlacesText s n (args.getD 0 .undefined)))
  | .number n, .numberToText => return .value (.text (← radixText s n (args.getD 0 .undefined)))
  | .bool b, .boolToText => return .value (.text (← toText s (.bool b)))
  | .text t, m => callTextMember s m t args
  | v, _ => return .value v

end Fragment.Value
