import Fragment.Source.Lexer
import Fragment.Number

/-! The values of string and number literals. -/
namespace Fragment.Source

/-- The character with a code, where there is one. -/
def charOfCode (n : Nat) : Except Fault Char :=
  if n < 0x110000 then .ok (if n < 0xd800 || 0xdfff < n then Char.ofNat n else Char.ofNat 0xfffd)
  else if n < Nat.pow 2 31 then .error (.value "chr() arg not in range(0x110000)")
  else .error .overflow

def hexValue (cs : List Char) : Nat := (Double.readInteger? 16 cs).getD 0

/-- What a single character after a backslash stands for. -/
def simpleEscape (c : Char) : List Char :=
  match c with
  | 'n' => ['\n']
  | 't' => ['\t']
  | 'r' => ['\r']
  | 'b' => ['\x08']
  | 'f' => ['\x0c']
  | 'v' => ['\x0b']
  | '0' => ['\x00']
  | '\n' => []
  | c => [c]

/-- A code in braces: its digits and what follows the closing brace. -/
def bracedCode? (cs : List Char) : Option (List Char × List Char) :=
  let (digits, rest) := cs.span isHexDigit
  match rest with
  | '\x7d' :: rest => if digits.isEmpty then none else some (digits, rest)
  | _ => none

/-- A code of exactly `count` digits, and what follows it. -/
def fixedCode? (count : Nat) (cs : List Char) : Option (List Char × List Char) :=
  let digits := cs.take count
  if digits.length = count && digits.all isHexDigit then some (digits, cs.drop count) else none

/-- The escape after a backslash: its characters, and what follows it. -/
def takeEscape : List Char → Except Fault (List Char × List Char)
  | [] => .ok (['\\'], [])
  | c :: rest =>
    let coded := match c, rest with
      | 'u', '\x7b' :: more => (bracedCode? more).or (fixedCode? 4 rest)
      | 'u', _ => fixedCode? 4 rest
      | 'x', _ => fixedCode? 2 rest
      | _, _ => none
    match coded with
    | some (digits, rest) => return ([← charOfCode (hexValue digits)], rest)
    | none => .ok (simpleEscape c, rest)

/-- The characters between the quotes of a string literal; each step takes at least one. -/
def unescape : Nat → List Char → Except Fault (List Char)
  | _, [] => .ok []
  | 0, _ => .ok []
  | fuel + 1, '\\' :: rest => do
    let (cs, rest) ← takeEscape rest
    return cs ++ (← unescape fuel rest)
  | fuel + 1, c :: rest => return c :: (← unescape fuel rest)

/-- The text that a string literal stands for. -/
def stringValue (literal : String) : Except Fault String := do
  let cs := (literal.toList.drop 1).dropLast
  return String.ofList (← unescape cs.length cs)

/-- The number that a number literal stands for: an integer unless it has a point or an exponent. -/
def numberValue (literal : String) : Except Fault Number :=
  match literal.toList with
  | '0' :: 'x' :: digits => .ok (.int (hexValue digits))
  | '0' :: 'X' :: digits => .ok (.int (hexValue digits))
  | cs =>
    if cs.any fun c => c = '.' || c = 'e' || c = 'E' then .ok (.float (Double.readUnsigned false cs))
    else match Double.readInteger? 10 cs with
      | some n => .ok (.int n)
      | none => .error (Double.integerFault 10 cs)

end Fragment.Source
