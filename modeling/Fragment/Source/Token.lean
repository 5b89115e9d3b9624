import Fragment.Source.Extent

/-! Tokens of the fragment language.
The lexer gives names, literals, keywords, operators and line breaks. The layout pass then turns
line breaks and semicolons into terminators, and marks the braces of blocks and the parentheses of
arrow parameters; those three kinds come from it alone. -/
namespace Fragment.Source

/-- The kind of a token. -/
inductive TokenKind where
  | name | number | string
  | constWord | letWord | varWord | functionWord | returnWord | ifWord | elseWord | whileWord
  | breakWord | continueWord | trueWord | falseWord | typeofWord | asyncWord | awaitWord
  | asWord | classWord | importWord | interfaceWord | typeWord | declareWord | enumWord
  | extendsWord | voidWord
  | arrow | ellipsis | strictEqual | strictNotEqual | looseEqual | looseNotEqual | lessEqual
  | greaterEqual | and | or | starStar | plusAssign | minusAssign | starAssign | slashAssign
  | percentAssign | assign | less | greater | plus | minus | star | slash | percent | bang
  | question | colon | comma | dot | semicolon | leftParen | rightParen | leftBracket
  | rightBracket | leftBrace | rightBrace | bar | ampersand
  | newline
  /-- The end of a statement. -/
  | terminator
  /-- A brace that opens a block. -/
  | blockBrace
  /-- A parenthesis that opens the parameters of an arrow function. -/
  | arrowParen
  /-- The end of the input. -/
  | finish
  deriving DecidableEq

namespace TokenKind

/-- The name of the kind, as token listings show it. -/
def label : TokenKind → String
  | .name => "NAME"
  | .number => "NUMBER"
  | .string => "STRING"
  | .constWord => "CONST"
  | .letWord => "LET"
  | .varWord => "VAR"
  | .functionWord => "FUNCTION"
  | .returnWord => "RETURN"
  | .ifWord => "IF"
  | .elseWord => "ELSE"
  | .whileWord => "WHILE"
  | .breakWord => "BREAK"
  | .continueWord => "CONTINUE"
  | .trueWord => "TRUE"
  | .falseWord => "FALSE"
  | .typeofWord => "TYPEOF"
  | .asyncWord => "ASYNC"
  | .awaitWord => "AWAIT"
  | .asWord => "AS"
  | .classWord => "CLASS"
  | .importWord => "IMPORT"
  | .interfaceWord => "INTERFACE"
  | .typeWord => "TYPE"
  | .declareWord => "DECLARE"
  | .enumWord => "ENUM"
  | .extendsWord => "EXTENDS"
  | .voidWord => "VOID"
  | .arrow => "ARROW"
  | .ellipsis => "DOTDOTDOT"
  | .strictEqual => "EQEQEQ"
  | .strictNotEqual => "NOTEQEQ"
  | .looseEqual => "EQEQ"
  | .looseNotEqual => "NOTEQ"
  | .lessEqual => "LTE"
  | .greaterEqual => "GTE"
  | .and => "AND"
  | .or => "OR"
  | .starStar => "STARSTAR"
  | .plusAssign => "PLUS_EQ"
  | .minusAssign => "MINUS_EQ"
  | .starAssign => "STAR_EQ"
  | .slashAssign => "SLASH_EQ"
  | .percentAssign => "PERCENT_EQ"
  | .assign => "EQUAL"
  | .less => "LT"
  | .greater => "GT"
  | .plus => "PLUS"
  | .minus => "MINUS"
  | .star => "STAR"
  | .slash => "SLASH"
  | .percent => "PERCENT"
  | .bang => "BANG"
  | .question => "QMARK"
  | .colon => "COLON"
  | .comma => "COMMA"
  | .dot => "DOT"
  | .semicolon => "SEMI"
  | .leftParen => "LPAR"
  | .rightParen => "RPAR"
  | .leftBracket => "LSQB"
  | .rightBracket => "RSQB"
  | .leftBrace => "LBRACE"
  | .rightBrace => "RBRACE"
  | .bar => "BAR"
  | .ampersand => "AMP"
  | .newline => "NEWLINE"
  | .terminator => "TERMINATOR"
  | .blockBrace => "BLOCK_LBRACE"
  | .arrowParen => "ARROW_LPAR"
  | .finish => "$END"

/-- The keyword that a word is, if it is one. -/
def ofWord : String → TokenKind
  | "const" => .constWord
  | "let" => .letWord
  | "var" => .varWord
  | "function" => .functionWord
  | "return" => .returnWord
  | "if" => .ifWord
  | "else" => .elseWord
  | "while" => .whileWord
  | "break" => .breakWord
  | "continue" => .continueWord
  | "true" => .trueWord
  | "false" => .falseWord
  | "typeof" => .typeofWord
  | "async" => .asyncWord
  | "await" => .awaitWord
  | "as" => .asWord
  | "class" => .classWord
  | "import" => .importWord
  | "interface" => .interfaceWord
  | "type" => .typeWord
  | "declare" => .declareWord
  | "enum" => .enumWord
  | "extends" => .extendsWord
  | "void" => .voidWord
  | _ => .name

/-- The operators and brackets with their spellings, longer ones before their beginnings. -/
def operators : List (List Char × TokenKind) := [
  (['.', '.', '.'], .ellipsis),
  (['=', '=', '='], .strictEqual),
  (['!', '=', '='], .strictNotEqual),
  (['=', '>'], .arrow),
  (['=', '='], .looseEqual),
  (['!', '='], .looseNotEqual),
  (['<', '='], .lessEqual),
  (['>', '='], .greaterEqual),
  (['&', '&'], .and),
  (['|', '|'], .or),
  (['*', '*'], .starStar),
  (['+', '='], .plusAssign),
  (['-', '='], .minusAssign),
  (['*', '='], .starAssign),
  (['/', '='], .slashAssign),
  (['%', '='], .percentAssign),
  (['='], .assign),
  (['<'], .less),
  (['>'], .greater),
  (['+'], .plus),
  (['-'], .minus),
  (['*'], .star),
  (['/'], .slash),
  (['%'], .percent),
  (['!'], .bang),
  (['?'], .question),
  ([':'], .colon),
  ([','], .comma),
  (['.'], .dot),
  ([';'], .semicolon),
  (['('], .leftParen),
  ([')'], .rightParen),
  (['['], .leftBracket),
  ([']'], .rightBracket),
  (['{'], .leftBrace),
  (['}'], .rightBrace),
  (['|'], .bar),
  (['&'], .ampersand)]

end TokenKind

/-- A token with its spelling and its place. -/
structure Token where
  kind : TokenKind
  text : String
  extent : Extent

/-- A token of another kind and spelling in the same place. -/
def Token.become (t : Token) (kind : TokenKind) (text : String) : Token := ⟨kind, text, t.extent⟩

end Fragment.Source
