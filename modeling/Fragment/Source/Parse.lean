import Fragment.Diagnostic
import Fragment.Source.Build
import Fragment.Source.Layout
import Fragment.Source.References

/-! Parsing a file: lexer, layout, recognition and building in a row.
A text that is no program gives one diagnostic. A literal without a value is a fault of its own. -/
namespace Fragment.Source

/-- Why a text gives no program. -/
inductive ParseError where
  /-- The text breaks the rules of the language. -/
  | diagnostic (d : Diagnostic)
  /-- A literal in the text has no value. -/
  | fault (f : Fault)

/-- Kinds that can begin an expression and no type or statement alone. -/
def expressionStarts : List TokenKind :=
  [.name, .number, .string, .leftParen, .arrowParen, .leftBrace, .leftBracket]

/-- What is said to be missing, in order of preference. -/
def missingTexts : List (TokenKind × String) := [
  (.rightParen, ")"), (.rightBracket, "]"), (.rightBrace, "\x7d"), (.greater, ">"), (.colon, ":"),
  (.arrow, "=>"), (.assign, "="), (.leftParen, "("), (.terminator, ";"), (.comma, ",")]

def parserDiagnostic (code message : String) (span : Span) : Diagnostic :=
  { message, code := some code, phase := some "parser", span }

/-- The diagnostic for a character that starts no token. -/
def StrayCharacter.diagnostic (e : StrayCharacter) (file : String) : Diagnostic :=
  let span : Span := { file, line := some e.position.line, column := some e.position.column }
  if e.char = '"' || e.char = '\'' then parserDiagnostic "E1002" "Unterminated string literal." span
  else parserDiagnostic "E1127" "Invalid character." span

/-- The diagnostic for a token that cannot stand where it does. -/
def UnexpectedToken.diagnostic (e : UnexpectedToken) (file : String) : Diagnostic :=
  let start := e.token.extent.start
  let span : Span := { file, line := some start.line, column := some start.column }
  let expects (k : TokenKind) : Bool := e.expected.contains k
  if expressionStarts.any expects && ! [TokenKind.rightParen, .rightBracket, .rightBrace].any expects then
    parserDiagnostic "E1109" "Expression expected." span
  else match missingTexts.find? fun (k, _) => expects k with
    | some (_, text) => parserDiagnostic "E1005" ("'" ++ text ++ "' expected.") span
    | none => parserDiagnostic "E1128" "Declaration or statement expected." span

/-- The error of a tree that cannot be built. -/
def BuildError.toParseError (file : String) : BuildError → ParseError
  | .missingFrom e => .diagnostic (parserDiagnostic "E1005" "'from' expected." (Span.ofExtent file e))
  | .literal f => .fault f
  | .malformed => .fault (.value "Unsupported node")

/-- How deep building may go. A tree has no more levels than the automaton has made steps, and each
level takes at most two calls. -/
def buildDepth (ts : List Token) : Nat := 128 * (ts.length + 2)

/-- Parses a text; the numbers of its nodes begin at `start`. Gives the file and the next number. -/
def parseFrom (start : Nat) (text file : String) : Except ParseError (SourceFile × Nat) := do
  let raw ← (tokens text).mapError fun e => .diagnostic (e.diagnostic file)
  let laidOut := layOut raw
  let trees ← (treeOf laidOut).mapError fun e => .diagnostic (e.diagnostic file)
  let nodes := trees.flatMap Tree.nodes
  let (statements, next) ← ((nodes.mapM (buildStmt (buildDepth laidOut))).run start).mapError
    (BuildError.toParseError file)
  return (⟨file, statements, references text⟩, next)

/-- Parses a text on its own. -/
def parse (text file : String) : Except ParseError SourceFile := (parseFrom 0 text file).map (·.1)

end Fragment.Source
