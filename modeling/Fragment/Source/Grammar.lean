import Fragment.Source.Token

/-! The grammar of the fragment language, over tokens that have been laid out.
A production says how a rule may be made of symbols and what its reduction builds. Rules that end
in `List` stand for one or more repetitions and give their items to the rule around them. -/
namespace Fragment.Source

/-- The rules of the grammar. -/
inductive Rule where
  | root | sourceFile | statement | exprStmt | varStmt | varDeclList | varDeclarator | returnStmt
  | breakStmt | continueStmt | block | ifStmt | whileStmt | functionDecl | typeAlias | interfaceDecl
  | heritage | enumDecl | enumBody | enumMember | classDecl | classBody | classMember | importDecl
  | importClause | ambientDecl | functionSig | paramList | param | typeAnn | returnAnn
  | expr | assignExpr | arrowFunction | arrowParams | arrowBody | conditional | logicalOr | logicalAnd
  | equality | relational | additive | multiplicative | exponent | unary | postfixExpr | arguments
  | primary | property
  | type | fnType | unionType | intersectionType | postfixType | primaryType | typeRef | typeArgs
  | typeParams | typeParam | objectTypeBody | typeMember
  | statementList | declaratorList | typeRefList | enumItemList | classItemList | importItemList
  | moreParamList | moreExprList | morePropertyList | moreTypeList | moreTypeParamList | typeItemList
  deriving DecidableEq

/-- What a node of the concrete tree is. -/
inductive Label where
  | root | sourceFile | exprStmt | varStmt | varDeclList | varDeclarator | returnStmt | breakStmt
  | continueStmt | emptyStmt | block | ifStmt | whileStmt | functionDecl | typeAlias | interfaceDecl
  | heritage | enumDecl | enumBody | enumMember | classDecl | classBody | classProperty | classMethod
  | importDecl | importClause | ambientVar | ambientFunction | ambientEnum | ambientInterface
  | functionSig | paramList | param | restParam | typeAnn | returnAnn
  | assign | arrowFunction | arrowParams | condExpr | binary | asExpr | unaryOp | awaitExpr
  | member | element | call | arguments | numberLit | stringLit | trueLit | falseLit | nameRef
  | paren | objectLiteral | arrayLiteral | propAssign | propShorthand
  | fnType | union | intersection | arrayType | parenType | typeLiteral | literalType | voidType
  | typeRef | typeArgs | typeParams | typeParam | objectTypeBody | propertySig | methodSig | callSig
  deriving DecidableEq

/-- A symbol of a production. -/
inductive Symbol where
  | token (kind : TokenKind)
  | rule (r : Rule)
  deriving DecidableEq

/-- What the reduction of a production builds. -/
inductive Make where
  /-- A node with the children of all its symbols. -/
  | node (label : Label)
  /-- Nothing new: the children go to the rule around it. -/
  | pass
  deriving DecidableEq

/-- One way to make a rule. -/
structure Production where
  rule : Rule
  symbols : List Symbol
  make : Make
  deriving DecidableEq

namespace Grammar

/-- A part of a rule: the sequences of symbols that may stand for it. -/
abbrev Part := List (List Symbol)

def tok (kind : TokenKind) : Part := [[.token kind]]

def use (r : Rule) : Part := [[.rule r]]

/-- One of several parts. -/
def oneOf (parts : List Part) : Part := parts.flatten

def tokOf (kinds : List TokenKind) : Part := kinds.map fun k => [.token k]

/-- The parts one after the other. -/
def seq : List Part → Part
  | [] => [[]]
  | part :: rest => part.flatMap fun first => (seq rest).map (first ++ ·)

/-- The part or nothing. -/
def opt (part : Part) : Part := part ++ [[]]

/-- One or more items of a list rule, or nothing. -/
def many (list : Rule) : Part := [[.rule list], []]

/-- Productions of a rule from one sequence of parts. -/
def define (r : Rule) (make : Make) (parts : List Part) : List Production :=
  (seq parts).map fun symbols => ⟨r, symbols, make⟩

/-- The productions of a list rule: an item, or the list and an item. -/
def listOf (list : Rule) (item : Part) : List Production :=
  define list .pass [item] ++ define list .pass [use list, item]

/-- A rule that is made of exactly one of several rules and is the same as it. -/
def sameAs (r : Rule) (rules : List Rule) : List Production :=
  rules.flatMap fun s => define r .pass [use s]

/-- Operators that join a left-recursive rule to the next tighter one. -/
def leftAssoc (r next : Rule) (operators : List TokenKind) : List Production :=
  sameAs r [next] ++ define r (.node .binary) [use r, tokOf operators, use next]

def openBrace : Part := tokOf [.leftBrace, .blockBrace]

def statements : List Production :=
  define .root (.node .root) [use .sourceFile, tok .finish] ++
  define .sourceFile (.node .sourceFile) [many .statementList] ++
  listOf .statementList (use .statement) ++
  sameAs .statement [.exprStmt, .varStmt, .returnStmt, .breakStmt, .continueStmt, .block, .ifStmt,
    .whileStmt, .functionDecl, .typeAlias, .interfaceDecl, .enumDecl, .classDecl, .importDecl,
    .ambientDecl] ++
  define .statement (.node .emptyStmt) [tok .terminator] ++
  define .exprStmt (.node .exprStmt) [use .expr, tok .terminator] ++
  define .varStmt (.node .varStmt) [use .varDeclList, tok .terminator] ++
  define .varDeclList (.node .varDeclList)
    [tokOf [.constWord, .letWord, .varWord], use .varDeclarator, many .declaratorList] ++
  listOf .declaratorList (seq [tok .comma, use .varDeclarator]) ++
  define .varDeclarator (.node .varDeclarator)
    [tok .name, opt (use .typeAnn), opt (seq [tok .assign, use .expr])] ++
  define .returnStmt (.node .returnStmt) [tok .returnWord, opt (use .expr), tok .terminator] ++
  define .breakStmt (.node .breakStmt) [tok .breakWord, tok .terminator] ++
  define .continueStmt (.node .continueStmt) [tok .continueWord, tok .terminator] ++
  define .block (.node .block) [tok .blockBrace, many .statementList, tok .rightBrace] ++
  define .ifStmt (.node .ifStmt) [tok .ifWord, tok .leftParen, use .expr, tok .rightParen,
    use .statement, opt (seq [tok .elseWord, use .statement])] ++
  define .whileStmt (.node .whileStmt)
    [tok .whileWord, tok .leftParen, use .expr, tok .rightParen, use .statement] ++
  define .functionDecl (.node .functionDecl) [opt (tok .asyncWord), tok .functionWord, tok .name,
    tok .leftParen, opt (use .paramList), tok .rightParen, opt (use .returnAnn), use .block]

def declarations : List Production :=
  define .typeAlias (.node .typeAlias)
    [tok .typeWord, tok .name, opt (use .typeParams), tok .assign, use .type, tok .terminator] ++
  define .interfaceDecl (.node .interfaceDecl)
    [tok .interfaceWord, tok .name, opt (use .typeParams), opt (use .heritage), use .objectTypeBody] ++
  define .heritage (.node .heritage) [tok .extendsWord, use .typeRef, many .typeRefList] ++
  listOf .typeRefList (seq [tok .comma, use .typeRef]) ++
  define .enumDecl (.node .enumDecl) [opt (tok .constWord), tok .enumWord, tok .name, use .enumBody] ++
  define .enumBody (.node .enumBody) [openBrace, many .enumItemList, tok .rightBrace] ++
  listOf .enumItemList (oneOf [use .enumMember, tok .terminator, tok .comma]) ++
  define .enumMember (.node .enumMember) [tok .name, opt (seq [tok .assign, use .expr])] ++
  define .classDecl (.node .classDecl)
    [tok .classWord, tok .name, opt (use .heritage), use .classBody] ++
  define .classBody (.node .classBody) [openBrace, many .classItemList, tok .rightBrace] ++
  listOf .classItemList (oneOf [use .classMember, tok .terminator]) ++
  define .classMember (.node .classProperty)
    [tok .name, opt (tok .question), opt (use .typeAnn), opt (seq [tok .assign, use .expr])] ++
  define .classMember (.node .classMethod) [tok .name, tok .leftParen, opt (use .paramList),
    tok .rightParen, opt (use .returnAnn), use .block] ++
  define .importDecl (.node .importDecl)
    [tok .importWord, opt (seq [use .importClause, tok .name]), tok .string, tok .terminator] ++
  define .importClause (.node .importClause) [tok .name] ++
  define .importClause (.node .importClause) [tok .star, tok .asWord, tok .name] ++
  define .importClause (.node .importClause) [openBrace, many .importItemList, tok .rightBrace] ++
  listOf .importItemList (tokOf [.name, .comma, .terminator]) ++
  define .ambientDecl (.node .ambientVar) [tok .declareWord, use .varDeclList, tok .terminator] ++
  define .ambientDecl (.node .ambientFunction) [tok .declareWord, use .functionSig, tok .terminator] ++
  define .ambientDecl (.node .ambientEnum) [tok .declareWord, use .enumDecl] ++
  define .ambientDecl (.node .ambientInterface) [tok .declareWord, use .interfaceDecl] ++
  define .functionSig (.node .functionSig) [tok .functionWord, tok .name, tok .leftParen,
    opt (use .paramList), tok .rightParen, opt (use .returnAnn)] ++
  define .paramList (.node .paramList) [use .param, many .moreParamList, opt (tok .comma)] ++
  listOf .moreParamList (seq [tok .comma, use .param]) ++
  define .param (.node .param) [tok .name, opt (tok .question), opt (use .typeAnn)] ++
  define .param (.node .restParam) [tok .ellipsis, tok .name, opt (use .typeAnn)] ++
  define .typeAnn (.node .typeAnn) [tok .colon, use .type] ++
  define .returnAnn (.node .returnAnn) [tok .colon, use .type]

def expressions : List Production :=
  sameAs .expr [.assignExpr] ++
  sameAs .assignExpr [.conditional, .arrowFunction] ++
  define .assignExpr (.node .assign) [use .postfixExpr,
    tokOf [.assign, .plusAssign, .minusAssign, .starAssign, .slashAssign, .percentAssign],
    use .assignExpr] ++
  define .arrowFunction (.node .arrowFunction)
    [opt (tok .asyncWord), use .arrowParams, tok .arrow, use .arrowBody] ++
  define .arrowParams (.node .arrowParams) [tok .name] ++
  define .arrowParams (.node .arrowParams)
    [tok .arrowParen, opt (use .paramList), tok .rightParen, opt (use .returnAnn)] ++
  sameAs .arrowBody [.block, .assignExpr] ++
  sameAs .conditional [.logicalOr] ++
  define .conditional (.node .condExpr)
    [use .logicalOr, tok .question, use .assignExpr, tok .colon, use .assignExpr] ++
  leftAssoc .logicalOr .logicalAnd [.or] ++
  leftAssoc .logicalAnd .equality [.and] ++
  leftAssoc .equality .relational [.strictEqual, .strictNotEqual, .looseEqual, .looseNotEqual] ++
  leftAssoc .relational .additive [.less, .greater, .lessEqual, .greaterEqual] ++
  define .relational (.node .asExpr) [use .relational, tok .asWord, use .type] ++
  leftAssoc .additive .multiplicative [.plus, .minus] ++
  leftAssoc .multiplicative .exponent [.star, .slash, .percent] ++
  sameAs .exponent [.unary] ++
  define .exponent (.node .binary) [use .postfixExpr, tok .starStar, use .exponent] ++
  sameAs .unary [.postfixExpr] ++
  define .unary (.node .unaryOp) [tokOf [.minus, .plus, .bang, .typeofWord], use .unary] ++
  define .unary (.node .awaitExpr) [tok .awaitWord, use .unary] ++
  sameAs .postfixExpr [.primary] ++
  define .postfixExpr (.node .member) [use .postfixExpr, tok .dot, tok .name] ++
  define .postfixExpr (.node .element)
    [use .postfixExpr, tok .leftBracket, use .expr, tok .rightBracket] ++
  define .postfixExpr (.node .call)
    [use .postfixExpr, tok .leftParen, opt (use .arguments), tok .rightParen] ++
  define .arguments (.node .arguments) [use .assignExpr, many .moreExprList, opt (tok .comma)] ++
  listOf .moreExprList (seq [tok .comma, use .assignExpr]) ++
  define .primary (.node .numberLit) [tok .number] ++
  define .primary (.node .stringLit) [tok .string] ++
  define .primary (.node .trueLit) [tok .trueWord] ++
  define .primary (.node .falseLit) [tok .falseWord] ++
  define .primary (.node .nameRef) [tok .name] ++
  define .primary (.node .paren) [tok .leftParen, use .expr, tok .rightParen] ++
  define .primary (.node .objectLiteral) [tok .leftBrace,
    opt (seq [use .property, many .morePropertyList, opt (tok .comma)]), tok .rightBrace] ++
  listOf .morePropertyList (seq [tok .comma, use .property]) ++
  define .primary (.node .arrayLiteral) [tok .leftBracket,
    opt (seq [use .assignExpr, many .moreExprList, opt (tok .comma)]), tok .rightBracket] ++
  define .property (.node .propAssign) [tokOf [.name, .string], tok .colon, use .assignExpr] ++
  define .property (.node .propShorthand) [tok .name]

def types : List Production :=
  sameAs .type [.unionType, .fnType] ++
  define .fnType (.node .fnType)
    [tok .arrowParen, opt (use .paramList), tok .rightParen, tok .arrow, use .type] ++
  sameAs .unionType [.intersectionType] ++
  define .unionType (.node .union) [use .unionType, tok .bar, use .intersectionType] ++
  sameAs .intersectionType [.postfixType] ++
  define .intersectionType (.node .intersection)
    [use .intersectionType, tok .ampersand, use .postfixType] ++
  sameAs .postfixType [.primaryType] ++
  define .postfixType (.node .arrayType) [use .postfixType, tok .leftBracket, tok .rightBracket] ++
  sameAs .primaryType [.typeRef] ++
  define .primaryType (.node .parenType) [tok .leftParen, use .type, tok .rightParen] ++
  define .primaryType (.node .typeLiteral) [use .objectTypeBody] ++
  define .primaryType (.node .literalType) [tokOf [.string, .number, .trueWord, .falseWord]] ++
  define .primaryType (.node .voidType) [tok .voidWord] ++
  define .typeRef (.node .typeRef) [tok .name, opt (use .typeArgs)] ++
  define .typeArgs (.node .typeArgs) [tok .less, use .type, many .moreTypeList, tok .greater] ++
  listOf .moreTypeList (seq [tok .comma, use .type]) ++
  define .typeParams (.node .typeParams)
    [tok .less, use .typeParam, many .moreTypeParamList, tok .greater] ++
  listOf .moreTypeParamList (seq [tok .comma, use .typeParam]) ++
  define .typeParam (.node .typeParam) [tok .name, opt (seq [tok .extendsWord, use .type])] ++
  define .objectTypeBody (.node .objectTypeBody) [openBrace, many .typeItemList, tok .rightBrace] ++
  listOf .typeItemList (oneOf [use .typeMember, tok .terminator, tok .comma]) ++
  define .typeMember (.node .propertySig) [tok .name, opt (tok .question), tok .colon, use .type] ++
  define .typeMember (.node .methodSig) [tok .name, opt (tok .question), tok .leftParen,
    opt (use .paramList), tok .rightParen, opt (use .returnAnn)] ++
  define .typeMember (.node .callSig)
    [tok .leftParen, opt (use .paramList), tok .rightParen, opt (use .returnAnn)]

/-- All productions; the first one is that of the whole input. -/
def productions : Array Production := (statements ++ declarations ++ expressions ++ types).toArray

end Grammar

end Fragment.Source
