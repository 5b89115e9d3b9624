import Fragment.Double.Binary
import Fragment.Fault
import Fragment.Text.Blank
import Fragment.Text.Digit
import Fragment.Text.Quoted

/-! Reading decimal numbers.
The digits may come from any script. Integers keep their full value up to 4300 digits. -/
namespace Fragment.Double

open Fragment.Text (digitValue? isDecimalDigit)

/-- The value of a row of decimal digits. -/
def digitsValue (cs : List Char) : Nat :=
  cs.foldl (fun n c => n * 10 + (digitValue? c).getD 0) 0

/-- The digits at the start, and the rest. -/
def spanDigits (cs : List Char) : List Char × List Char := cs.span isDecimalDigit

/-- A sign at the start, and the rest. -/
def takeSign : List Char → List Char × List Char
  | '+' :: rest => (['+'], rest)
  | '-' :: rest => (['-'], rest)
  | cs => ([], cs)

/-- The exponent part at the start: a mark, a sign and at least one digit, or nothing. -/
def takeExponent : List Char → List Char × List Char
  | c :: rest =>
    if c = 'e' || c = 'E' then
      let (sign, afterSign) := takeSign rest
      let (digits, tail) := spanDigits afterSign
      if digits.isEmpty then ([], c :: rest) else (c :: sign ++ digits, tail)
    else ([], c :: rest)
  | [] => ([], [])

/-- The longest unsigned decimal number at the start: digits with or without a fraction, or a
fraction alone, then perhaps an exponent. -/
def takeUnsigned (cs : List Char) : List Char × List Char :=
  let (whole, rest) := spanDigits cs
  if whole.isEmpty then
    match rest with
    | '.' :: tail =>
      let (part, tail) := spanDigits tail
      if part.isEmpty then ([], cs)
      else
        let (exponent, tail) := takeExponent tail
        ('.' :: part ++ exponent, tail)
    | _ => ([], cs)
  else
    let (part, tail) := match rest with
      | '.' :: tail =>
        let (part, tail) := spanDigits tail
        ('.' :: part, tail)
      | _ => ([], rest)
    let (exponent, tail) := takeExponent tail
    (whole ++ part ++ exponent, tail)

/-- The double that an unsigned decimal number spells. -/
def readUnsigned (negative : Bool) (cs : List Char) : Float :=
  let (whole, rest) := spanDigits cs
  let (part, tail) := match rest with
    | '.' :: tail => spanDigits tail
    | _ => ([], rest)
  let exponent : Int := match tail with
    | _ :: tail => match takeSign tail with
      | (['-'], digits) => -(digitsValue digits : Int)
      | (_, digits) => digitsValue digits
    | [] => 0
  ofDecimal negative (digitsValue (whole ++ part)) (exponent - part.length)

/-- How many digits an integer may have to be read. -/
def integerDigitLimit : Nat := 4300

/-- The digit of a base up to 36, as a letter or decimal digit of either case. -/
def baseDigit? (c : Char) : Option Nat :=
  if 'a' ≤ c && c ≤ 'z' then some (c.toNat - 87)
  else if 'A' ≤ c && c ≤ 'Z' then some (c.toNat - 55)
  else digitValue? c

/-- The integer spelled in a base, if every character is one of its digits and there are not too
many of them; bases that are powers of two have no limit. -/
def readInteger? (base : Nat) (cs : List Char) : Option Nat :=
  if cs.isEmpty then none
  else if integerDigitLimit < cs.length && !([2, 4, 8, 16, 32].contains base) then none
  else cs.foldlM (fun n c => do
    let d ← baseDigit? c
    if d < base then some (n * base + d) else none) 0

/-- Why a row of characters is not read as an integer: there are too many digits at its start, or it
has characters that are no digits of the base. -/
def integerFault (base : Nat) (cs : List Char) : Fault :=
  let digits := (cs.takeWhile fun c => (baseDigit? c).any (· < base)).length
  if integerDigitLimit < digits then
    .value (s!"Exceeds the limit ({integerDigitLimit} digits) for integer string conversion: value has {digits}" ++
      " digits; use sys.set_int_max_str_digits() to increase the limit")
  else
    let shown := String.ofList ((Text.quoted (String.ofList cs)).toList.take 200)
    .value (s!"invalid literal for int() with base {base}: " ++ shown)

/-- The characters without the underscores between two digits; any other underscore is refused. -/
def dropUnderscores : List Char → Option (List Char)
  | '_' :: _ => none
  | c :: '_' :: d :: rest =>
    if isDecimalDigit c && isDecimalDigit d then (dropUnderscores (d :: rest)).map (c :: ·) else none
  | [_, '_'] => none
  | c :: rest => (dropUnderscores rest).map (c :: ·)
  | [] => some []

/-- Whether `c` may stand around a number. The four separators of ASCII may not. -/
def isNumberBlank (c : Char) : Bool := Text.isBlank c && !(28 ≤ c.toNat && c.toNat ≤ 31)

/-- The double that a whole text spells: a decimal number, an infinity or NaN, with a sign or without,
between blanks. -/
def ofText? (t : String) : Option Float := do
  let cs := ((t.toList.dropWhile isNumberBlank).reverse.dropWhile isNumberBlank).reverse
  let (sign, rest) := takeSign (← dropUnderscores cs)
  let negative := sign == ['-']
  let word := String.ofList (rest.map Char.toLower)
  if word = "inf" || word = "infinity" then return infinity negative
  if word = "nan" then return nan
  match takeUnsigned rest with
  | ([], _) => none
  | (spelled, []) => return readUnsigned negative spelled
  | _ => none

end Fragment.Double
