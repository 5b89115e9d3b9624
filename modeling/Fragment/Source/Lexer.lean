import Fragment.Source.Token
import Fragment.Double.Read

/-! From characters to tokens.
At each position names, numbers, strings, comments and blanks are tried first and then operators,
longest first. The lexer either reaches the end of the text or stops at the first character that
starts no token. -/
namespace Fragment.Source

/-- A character that starts no token. -/
structure StrayCharacter where
  position : Position
  char : Char

/-- What stands at the start of some characters. -/
inductive Lexeme where
  | token (kind : TokenKind) (spelled : List Char)
  | skip (spelled : List Char)

def Lexeme.spelled : Lexeme → List Char
  | .token _ cs => cs
  | .skip cs => cs

def isNameStart (c : Char) : Bool := c.isAlpha || c = '_' || c = '$'

def isNamePart (c : Char) : Bool := c.isAlphanum || c = '_' || c = '$'

def isHexDigit (c : Char) : Bool :=
  c.isDigit || ('a' ≤ c && c ≤ 'f') || ('A' ≤ c && c ≤ 'F')

/-- A number at the start: hexadecimal if digits follow the mark, decimal otherwise. -/
def takeNumber (cs : List Char) : List Char :=
  match cs with
  | '0' :: x :: rest =>
    let digits := rest.takeWhile isHexDigit
    if (x = 'x' || x = 'X') && !digits.isEmpty then '0' :: x :: digits
    else (Double.takeUnsigned cs).1
  | cs => (Double.takeUnsigned cs).1

/-- The rest of a string up to its closing mark, within one line; a backslash keeps the character
after it. -/
def takeString? (mark : Char) : List Char → Option (List Char)
  | '\\' :: c :: rest => if c = '\n' then none else (takeString? mark rest).map ('\\' :: c :: ·)
  | c :: rest =>
    if c = mark then some [c]
    else if c = '\n' || c = '\\' then none
    else (takeString? mark rest).map (c :: ·)
  | [] => none

/-- The rest of a block comment, if it is closed. -/
def takeBlockComment? : List Char → Option (List Char)
  | '*' :: '/' :: _ => some ['*', '/']
  | c :: rest => (takeBlockComment? rest).map (c :: ·)
  | [] => none

def isBlank (c : Char) : Bool := c = ' ' || c = '\t' || c = '\x0c' || c = '\r'

/-- The operator or bracket at the start. -/
def takeOperator? (cs : List Char) : Option Lexeme :=
  (TokenKind.operators.find? fun (spelled, _) => spelled.isPrefixOf cs).map fun (spelled, kind) =>
    .token kind spelled

/-- The lexeme at the start of some characters. -/
def takeLexeme? (cs : List Char) : Option Lexeme :=
  match cs with
  | [] => none
  | c :: rest =>
    let number := takeNumber cs
    if !number.isEmpty then some (.token .number number)
    else if c = '"' || c = '\'' then
      (takeString? c rest).map fun tail => .token .string (c :: tail)
    else if isNameStart c then
      let word := cs.takeWhile isNamePart
      some (.token (TokenKind.ofWord (String.ofList word)) word)
    else if isBlank c then some (.skip (cs.takeWhile isBlank))
    else if c = '\n' then some (.token .newline [c])
    else match cs with
      | '/' :: '/' :: _ => some (.skip (cs.takeWhile (· ≠ '\n')))
      | '/' :: '*' :: rest => match takeBlockComment? rest with
        | some tail => some (.skip ('/' :: '*' :: tail))
        | none => takeOperator? cs
      | _ => takeOperator? cs

/-- The tokens of `cs`, which starts at `pos`, behind those already found. Each lexeme takes at
least one character, so as many steps as there are characters are enough. -/
def lexFrom : Nat → Position → Array Token → List Char → Except StrayCharacter (Array Token)
  | _, _, found, [] => .ok found
  | 0, _, found, _ => .ok found
  | fuel + 1, pos, found, c :: rest =>
    match takeLexeme? (c :: rest) with
    | none => .error ⟨pos, c⟩
    | some lexeme =>
      let after := pos.advance lexeme.spelled
      let found := match lexeme with
        | .token kind spelled => found.push ⟨kind, String.ofList spelled, ⟨pos, after⟩⟩
        | .skip _ => found
      lexFrom fuel after found ((c :: rest).drop lexeme.spelled.length)

/-- The tokens of a text, line breaks and semicolons included. -/
def tokens (text : String) : Except StrayCharacter (List Token) :=
  let cs := text.toList
  (lexFrom cs.length ⟨1, 1⟩ #[] cs).map Array.toList

end Fragment.Source
