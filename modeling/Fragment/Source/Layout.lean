import Fragment.Source.Token

/-! Layout: where statements end, and what braces and parentheses open.
The pass reads the tokens of the lexer from left to right and decides three things that need more
than one token of context: whether a line break ends a statement, whether a brace opens a block or
an object, and whether a parenthesis opens the parameters of an arrow function. -/
namespace Fragment.Source

namespace TokenKind

/-- Kinds after which a line break may end a statement. -/
def isTerminable : TokenKind → Bool
  | .name | .number | .string | .trueWord | .falseWord | .voidWord | .rightParen | .rightBracket
  | .greater | .returnWord | .breakWord | .continueWord => true
  | _ => false

/-- Kinds that continue the expression of the line before. -/
def isContinuation : TokenKind → Bool
  | .dot | .arrow | .question | .colon | .comma | .asWord | .extendsWord | .bar | .ampersand
  | .leftParen | .leftBracket | .rightParen | .rightBracket | .assign | .plusAssign | .minusAssign
  | .starAssign | .slashAssign | .percentAssign | .plus | .minus | .star | .slash | .percent
  | .starStar | .strictEqual | .strictNotEqual | .looseEqual | .looseNotEqual | .less | .greater
  | .lessEqual | .greaterEqual | .and | .or => true
  | _ => false

/-- Kinds that begin a statement which holds only types. -/
def isTypeStatement : TokenKind → Bool
  | .typeWord | .declareWord => true
  | _ => false

/-- Kinds that never continue a type, so a line break before them ends a type statement. -/
def isTypeBreak : TokenKind → Bool
  | .leftParen | .leftBracket => true
  | _ => false

/-- Kinds after which a brace opens an object or a type with members; after any other it opens a
block. -/
def isObjectContext : TokenKind → Bool
  | .colon | .comma | .leftParen | .arrowParen | .leftBracket | .leftBrace | .assign | .plusAssign
  | .minusAssign | .starAssign | .slashAssign | .percentAssign | .returnWord | .question | .plus
  | .minus | .star | .slash | .percent | .starStar | .strictEqual | .strictNotEqual | .looseEqual
  | .looseNotEqual | .less | .greater | .lessEqual | .greaterEqual | .and | .or | .bang
  | .typeofWord | .awaitWord | .ellipsis | .bar | .ampersand | .asWord => true
  | _ => false

/-- Kinds after which a parenthesis is a call. -/
def isCalleeEnd : TokenKind → Bool
  | .name | .rightParen | .rightBracket => true
  | _ => false

def isOpener : TokenKind → Bool
  | .leftParen | .leftBracket | .leftBrace => true
  | _ => false

def isCloser : TokenKind → Bool
  | .rightParen | .rightBracket | .rightBrace => true
  | _ => false

end TokenKind

/-- What an open bracket is. -/
inductive Bracket where
  | paren
  | square
  | object
  | block
  | body
  deriving DecidableEq

/-- Whether statements stand directly inside the bracket. -/
def Bracket.holdsStatements : Bracket → Bool
  | .block | .body => true
  | _ => false

/-- What the pass remembers of the tokens read so far. -/
structure Layout where
  /-- The open brackets, innermost first. -/
  opened : List Bracket := []
  /-- The last token written. -/
  last : Option Token := none
  /-- Whether the last token closed a block. -/
  closedBlock : Bool := false
  /-- A line break that ends the statement unless the next token continues it. -/
  pending : Option Token := none
  /-- The kind of the token that began the current statement. -/
  head : Option TokenKind := none

namespace Layout

def lastKind (l : Layout) : Option TokenKind := l.last.map (·.kind)

/-- Whether the innermost open bracket, if any, holds statements. -/
def amongStatements (l : Layout) : Bool := l.opened.head?.all Bracket.holdsStatements

/-- Whether a line break here ends a statement. -/
def breakEnds (l : Layout) : Bool :=
  l.amongStatements && !l.closedBlock &&
    l.lastKind.any fun k => k.isTerminable || k = .rightBrace

/-- Whether the next token begins a statement. -/
def atStatementStart (l : Layout) : Bool :=
  l.amongStatements &&
    (l.closedBlock || l.lastKind.all fun k => k = .terminator || k = .blockBrace)

/-- The layout after a token has been written. -/
def wrote (l : Layout) (t : Token) : Layout := { l with last := some t, closedBlock := false }

end Layout

/-- The tokens after the bracket that closes the first `depth` open ones. -/
def afterClosing : Nat → List Token → Option (List Token)
  | _, [] => none
  | depth, t :: rest =>
    if t.kind.isOpener then afterClosing (depth + 1) rest
    else if t.kind.isCloser then
      if depth ≤ 1 then some rest else afterClosing (depth - 1) rest
    else afterClosing depth rest

/-- Whether an arrow follows a return annotation, at the depth where it began. -/
def arrowAfterType : Nat → List Token → Bool
  | _, [] => false
  | depth, t :: rest =>
    if t.kind.isOpener || t.kind = .less then arrowAfterType (depth + 1) rest
    else if t.kind.isCloser || t.kind = .greater then
      match depth with
      | 0 => false
      | depth + 1 => arrowAfterType depth rest
    else if depth = 0 then
      match t.kind with
      | .arrow => true
      | .semicolon | .newline | .assign | .comma => false
      | _ => arrowAfterType depth rest
    else arrowAfterType depth rest

/-- Whether the parenthesis at the start opens arrow parameters: an arrow follows the parenthesis
that closes it, with or without a return annotation between them. -/
def startsArrow (ts : List Token) : Bool :=
  match afterClosing 0 ts with
  | some (t :: rest) => t.kind = .arrow || (t.kind = .colon && arrowAfterType 0 rest)
  | _ => false

namespace Layout

/-- Decides on a pending line break before `kind`: the terminator to write, and the layout. -/
def settle (l : Layout) (kind : TokenKind) : List Token × Layout :=
  match l.pending with
  | none => ([], l)
  | some brk =>
    let l := { l with pending := none }
    if !kind.isContinuation || (l.head.any TokenKind.isTypeStatement && kind.isTypeBreak) then
      let t := brk.become .terminator brk.text
      ([t], l.wrote t)
    else ([], l)

/-- Writes a token that is neither a line break nor a semicolon; `rest` are the tokens after it. -/
def write (l : Layout) (t : Token) (rest : List Token) : List Token × Layout :=
  let before := l.lastKind
  match t.kind with
  | .leftBrace =>
    if before.any TokenKind.isObjectContext then ([t], { l with opened := .object :: l.opened }.wrote t)
    else
      let bracket := if before = some .arrow then Bracket.body else .block
      let t := t.become .blockBrace t.text
      ([t], { l with opened := bracket :: l.opened }.wrote t)
  | .leftParen =>
    let t := if !before.any TokenKind.isCalleeEnd && startsArrow (t :: rest) then t.become .arrowParen t.text else t
    ([t], { l with opened := .paren :: l.opened }.wrote t)
  | .leftBracket => ([t], { l with opened := .square :: l.opened }.wrote t)
  | .rightParen | .rightBracket => ([t], { l with opened := l.opened.tail }.wrote t)
  | .rightBrace =>
    let bracket := l.opened.head?.getD .block
    let needsEnd := bracket.holdsStatements && !l.closedBlock &&
      before.any fun k => k ≠ .terminator && k ≠ .blockBrace
    let closed := { l with opened := l.opened.tail }.wrote t
    ((if needsEnd then [t.become .terminator ""] else []) ++ [t],
      { closed with closedBlock := bracket = .block })
  | _ => ([t], l.wrote t)

/-- One token of the lexer: what it writes, and the layout after it. -/
def step (l : Layout) (t : Token) (rest : List Token) : List Token × Layout :=
  match t.kind with
  | .newline =>
    ([], if l.pending.isNone && l.breakEnds then { l with pending := some t } else l)
  | .semicolon =>
    let t := t.become .terminator t.text
    ([t], { l with pending := none }.wrote t)
  | kind =>
    let (ended, l) := l.settle kind
    let l := if l.atStatementStart then { l with head := some kind } else l
    let (written, l) := l.write t rest
    (ended ++ written, l)

/-- The terminator that the end of the input adds. -/
def finish (l : Layout) : List Token :=
  match l.last with
  | none => []
  | some t => if t.kind ≠ .terminator && !l.closedBlock then [t.become .terminator ""] else []

/-- The output for the tokens that are still to be read. -/
def run (l : Layout) : List Token → List Token
  | [] => l.finish
  | t :: rest =>
    let (written, next) := l.step t rest
    written ++ next.run rest

end Layout

/-- The tokens with terminators, block braces and arrow parentheses in place. -/
def layOut (ts : List Token) : List Token := Layout.run {} ts

end Fragment.Source
