import Fragment.Value.Arith
import Fragment.Value.Access
import Fragment.Double.Functions

/-! The functions that declaration libraries bind to names.
`LibraryFunction` lists them; `call` applies one to its arguments. Printing is the one effect, so a
call may also give a line of output. -/
namespace Fragment.Value

/-- Functions of one number that go through the machine's doubles. -/
inductive UnaryFunction where
  | abs | acos | asin | atan | ceil | cos | exp | floor | sin | sqrt | tan
  | acosh | asinh | atanh | cbrt | cosh | expm1 | log1p | sinh | tanh | trunc
  deriving DecidableEq

/-- Logarithms. -/
inductive Logarithm where
  | natural | decimal | binary
  deriving DecidableEq

/-- A function bound by a declaration library. -/
inductive LibraryFunction where
  | parseFloat | parseInt | isNaN | isFinite
  | unary (f : UnaryFunction)
  | log (base : Logarithm)
  | atan2 | max | min | pow | random | round | hypot | sign
  | now | uptime | print
  deriving DecidableEq

namespace UnaryFunction

/-- The value of the function, or none where it has no real value. Beyond the range of doubles, and
where an infinity has no integer part, the value is infinity. -/
def value? (f : UnaryFunction) (x : Float) : Option Float :=
  let within (y : Float) : Option Float :=
    -- A NaN that comes out of a number marks a point outside the domain.
    if Double.isNaN y && !Double.isNaN x then none
    else if Double.isInfinite y && !Double.isInfinite x then some (Double.infinity false)
    else some y
  let whole (y : Float) : Option Float :=
    if Double.isNaN x then none
    else if Double.isInfinite x then some (Double.infinity false)
    else some y
  match f with
  | .abs => some x.abs
  | .acos => within x.acos
  | .asin => within x.asin
  | .atan => within x.atan
  | .ceil => whole x.ceil
  | .cos => within x.cos
  | .exp => within x.exp
  | .floor => whole x.floor
  | .sin => within x.sin
  | .sqrt => within x.sqrt
  | .tan => within x.tan
  | .acosh => within x.acosh
  | .asinh => within x.asinh
  | .atanh => if x.abs == 1.0 then none else within x.atanh
  | .cbrt => some (if Double.isNegative x then -(x.abs.pow (1.0 / 3.0)) else x.abs.pow (1.0 / 3.0))
  | .cosh => within x.cosh
  | .expm1 => within (Double.expm1 x)
  | .log1p => if x == -1.0 then none else within (Double.log1p x)
  | .sinh => within x.sinh
  | .tanh => within x.tanh
  | .trunc => whole (if Double.isNegative x then x.ceil else x.floor)

end UnaryFunction

def Logarithm.apply (base : Logarithm) (x : Float) : Float :=
  match base with
  | .natural => x.log
  | .decimal => x.log10
  | .binary => x.log2

/-- Integral results below `2 ^ 53` are integers. -/
def numberResult (x : Float) : Number :=
  match Double.floatKind x with
  | .finite b =>
    if b.isInteger && b.truncate.natAbs < Nat.pow 2 53 then .int b.truncate else .float x
  | _ => .float x

/-- Applies a function of one number; an argument beyond the range of doubles gives infinity. -/
def callUnary (s : Store) (f : UnaryFunction) (v : Value) : Except Fault Number := do
  match (do (← toNumber s v).toFloat : Except Fault Float) with
  | .ok x => return ((f.value? x).map numberResult).getD Number.nan
  | .error .overflow => return Number.infinity false
  | .error (.value _) => return Number.nan
  | .error fault => throw fault

/-- The first greatest of some numbers, or the first least. -/
def extreme (better : Number → Number → Bool) : List Number → Number → Number
  | [], best => best
  | n :: rest, best => extreme better rest (if better n best then n else best)

/-- The numbers of the arguments, if none of them is NaN. -/
def numbersIfAll (s : Store) (args : List Value) : Except Fault (Option (List Number)) := do
  let numbers ← args.mapM (toNumber s)
  let anyNaN ← numbers.foldlM (fun found n => if found then pure true else n.isNaN) false
  return if anyNaN then none else some numbers

/-- The longest number at the start of a text. -/
def parseFloat (s : Store) (v : Value) : Except Fault Number := do
  let cs := Text.trimStart (← toText s v).toList
  let (sign, rest) := Double.takeSign cs
  let infinite := "Infinity".toList
  if infinite.isPrefixOf rest then return Number.infinity (sign == ['-'])
  let (spelled, _) := Double.takeUnsigned rest
  if spelled.isEmpty then return Number.nan
  numberOfText (String.ofList (sign ++ spelled))

/-- Whether `c` is a digit of the base, of either case. -/
def isBaseDigit (base : Nat) (c : Char) : Bool :=
  match Text.lowerChar c with
  | [d] => (d.isDigit || (('a' ≤ d) && (d ≤ 'z'))) && ((Double.baseDigit? d).any (· < base))
  | _ => false

/-- Drops a hexadecimal mark at the start. -/
def dropHexMark : List Char → Option (List Char)
  | '0' :: 'x' :: rest => some rest
  | '0' :: 'X' :: rest => some rest
  | _ => none

/-- The longest integer at the start of a text, in a base. -/
def parseInt (s : Store) (v radix : Value) : Except Fault Number := do
  let cs := Text.trim (← toText s v).toList
  let (sign, cs) := Double.takeSign cs
  let base ← toInteger s radix 0
  let (base, cs) : Whole × List Char := match base, dropHexMark cs with
    | .finite 0, some rest => (.finite 16, rest)
    | .finite 0, none => (.finite 10, cs)
    | .finite 16, some rest => (.finite 16, rest)
    | base, _ => (base, cs)
  if base.less 2 || base.greater 36 then return Number.nan
  let base := (← base.toInt).toNat
  let digits := cs.takeWhile (isBaseDigit base)
  if digits.isEmpty then return Number.nan
  match Double.readInteger? base digits with
  | some n => return .int (if sign == ['-'] then -(n : Int) else n)
  | none => throw (Double.integerFault base digits)

/-- Rounds to the nearest integer, halves upwards. -/
def round (s : Store) (v : Value) : Except Fault Number := do
  let x ← (← toNumber s v).toFloat
  match Double.truncate? (x + 0.5).floor with
  | some n => return .int n
  | none => return .float x

/-- The sign of a number; zeros and NaN stand for themselves. -/
def sign (s : Store) (v : Value) : Except Fault Number := do
  let n ← toNumber s v
  if (← n.isNaN) then return n
  return if n.isZero then n else if n.isBelowZero then .int (-1) else .int 1

/-- A logarithm; it has no value below zero. -/
def logarithm (s : Store) (base : Logarithm) (v : Value) : Except Fault Number := do
  let x ← (← toNumber s v).toFloat
  if Double.isNaN x || x < 0.0 then return Number.nan
  if x == 0.0 then return Number.infinity true
  if Double.isInfinite x then return .float x
  return numberResult (base.apply x)

/-- The square root of the sum of the squares. -/
def hypot (s : Store) (args : List Value) : Except Fault Number := do
  let numbers ← args.mapM (toNumber s)
  let anyInfinite ← numbers.foldlM (fun found n => if found then pure true else n.isInfinite) false
  if anyInfinite then return Number.infinity false
  return numberResult (Double.hypot (← numbers.mapM Number.toFloat))

namespace LibraryFunction

/-- The greatest number of arguments, if there is one. -/
def greatest? : LibraryFunction → Option Nat
  | .max | .min | .hypot | .print => none
  | .parseInt | .atan2 | .pow => some 2
  | .random | .now | .uptime => some 0
  | _ => some 1

/-- Calls the function; the second part is a line that it prints. -/
def call (f : LibraryFunction) (s : Store) (args : List Value) : Except Fault (Value × Option String) := do
  if let some most := f.greatest? then
    if most < args.length then throw .kind
  let arg (i : Nat) : Value := args.getD i .undefined
  let number (n : Number) : Except Fault (Value × Option String) := .ok (.number n, none)
  match f with
  | .parseFloat => number (← Value.parseFloat s (arg 0))
  | .parseInt => number (← Value.parseInt s (arg 0) (arg 1))
  | .isNaN => return (.bool (← (← toNumber s (arg 0)).isNaN), none)
  | .isFinite =>
    let n ← toNumber s (arg 0)
    if (← n.isNaN) then return (.bool false, none)
    return (.bool !(← n.isInfinite), none)
  | .unary g => number (← callUnary s g (arg 0))
  | .log base => number (← logarithm s base (arg 0))
  | .atan2 =>
    let y ← (← toNumber s (arg 0)).toFloat
    let x ← (← toNumber s (arg 1)).toFloat
    number (numberResult (Float.atan2 y x))
  | .max => match (← numbersIfAll s args) with
    | none => number Number.nan
    | some [] => number (Number.infinity true)
    | some (n :: rest) => number (extreme (fun a best => best.less a) rest n)
  | .min => match (← numbersIfAll s args) with
    | none => number Number.nan
    | some [] => number (Number.infinity false)
    | some (n :: rest) => number (extreme (fun a best => a.less best) rest n)
  | .pow => number (← power s (arg 0) (arg 1))
  | .random => number (.float 0.5)
  | .round => number (← Value.round s (arg 0))
  | .hypot => number (← Value.hypot s args)
  | .sign => number (← Value.sign s (arg 0))
  | .now => number (.float 0.0)
  | .uptime => number (.float 0.0)
  | .print =>
    let texts ← args.mapM (toText s)
    return (.undefined, some (String.intercalate " " texts))

end LibraryFunction

/-- What a library binds to a name. -/
inductive Binding where
  | number (n : Number)
  | text (t : String)
  | function (f : LibraryFunction)
  | object (fields : List (String × Binding))

/-- The mathematical constants and functions of the oldest library. -/
def mathBasics : List (String × Binding) := [
  ("E", .number (.float (Float.ofBits 0x4005bf0a8b145769))),
  ("LN10", .number (.float (Float.log 10.0))),
  ("LN2", .number (.float (Float.log 2.0))),
  ("LOG2E", .number (.float (1.0 / Float.log 2.0))),
  ("LOG10E", .number (.float (1.0 / Float.log 10.0))),
  ("PI", .number (.float (Float.ofBits 0x400921fb54442d18))),
  ("SQRT1_2", .number (.float (Float.sqrt 0.5))),
  ("SQRT2", .number (.float (Float.sqrt 2.0))),
  ("abs", .function (.unary .abs)),
  ("acos", .function (.unary .acos)),
  ("asin", .function (.unary .asin)),
  ("atan", .function (.unary .atan)),
  ("atan2", .function .atan2),
  ("ceil", .function (.unary .ceil)),
  ("cos", .function (.unary .cos)),
  ("exp", .function (.unary .exp)),
  ("floor", .function (.unary .floor)),
  ("log", .function (.log .natural)),
  ("max", .function .max),
  ("min", .function .min),
  ("pow", .function .pow),
  ("random", .function .random),
  ("round", .function .round),
  ("sin", .function (.unary .sin)),
  ("sqrt", .function (.unary .sqrt)),
  ("tan", .function (.unary .tan))]

/-- The mathematical functions added later. -/
def mathAdditions : List (String × Binding) := [
  ("acosh", .function (.unary .acosh)),
  ("asinh", .function (.unary .asinh)),
  ("atanh", .function (.unary .atanh)),
  ("cbrt", .function (.unary .cbrt)),
  ("cosh", .function (.unary .cosh)),
  ("expm1", .function (.unary .expm1)),
  ("hypot", .function .hypot),
  ("log10", .function (.log .decimal)),
  ("log1p", .function (.unary .log1p)),
  ("log2", .function (.log .binary)),
  ("sign", .function .sign),
  ("sinh", .function (.unary .sinh)),
  ("tanh", .function (.unary .tanh)),
  ("trunc", .function (.unary .trunc))]

/-- The names that the libraries bind, in a fixed order whatever order they are asked for in. -/
def libraryBindings (names : List String) : Except Fault (List (String × Binding)) := do
  let known := ["es5", "es2015", "es2017", "es2019", "es2021", "esnext", "dom", "host"]
  match (names.filter (!known.contains ·)).foldl (fun least n => match least with
      | none => some n
      | some m => some (if n < m then n else m)) none with
  | some unknown => throw (.library unknown)
  | none =>
    let wants (name : String) : Bool := names.contains name
    let math := (if wants "es5" then mathBasics else []) ++ (if wants "es2015" then mathAdditions else [])
    let basics := if wants "es5" then [
        ("NaN", .number Number.nan),
        ("Infinity", .number (Number.infinity false)),
        ("parseFloat", .function .parseFloat),
        ("parseInt", .function .parseInt),
        ("isNaN", .function .isNaN),
        ("isFinite", .function .isFinite)]
      else []
    let math := if math.isEmpty then [] else [("Math", .object math)]
    let page := if wants "dom" then [
        ("performance", .object [("now", .function .now)]),
        ("devicePixelRatio", .number (.int 1)),
        ("innerWidth", .number (.int 1024)),
        ("innerHeight", .number (.int 768))]
      else []
    let host := if wants "host" then [
        ("console", .object [("log", .function .print), ("info", .function .print),
          ("warn", .function .print), ("error", .function .print)]),
        ("process", .object [("pid", .number (.int 1)), ("platform", .text "linux"),
          ("uptime", .function .uptime)])]
      else []
    return basics ++ math ++ page ++ host

end Fragment.Value
