import Fragment.Source.Tree
import Fragment.Source.Program
import Fragment.Source.Literal

/-! From concrete trees to abstract ones.
Each function builds one sort of node. Its first argument bounds how deep the tree may be; every
step goes down at least one level. -/
namespace Fragment.Source

/-- What can still be wrong with a tree that the grammar accepts. -/
inductive BuildError where
  /-- An import clause is not followed by the word `from`. -/
  | missingFrom (extent : Extent)
  /-- A literal has no value. -/
  | literal (fault : Fault)
  /-- A tree lacks a part that its label calls for, or is deeper than it may be. -/
  | malformed

/-- Building hands out the numbers of nodes. -/
abbrev Builder := StateT Nat (Except BuildError)

namespace Builder

/-- A new node at a place. -/
def mark (extent : Extent) : Builder Mark := do
  let n ← get
  set (n + 1)
  return ⟨n, extent⟩

def literal {α : Type} (value : Except Fault α) : Builder α :=
  match value with
  | .ok a => pure a
  | .error fault => throw (.literal fault)

/-- A part of a tree that has to be there. -/
def part {α : Type} : Option α → Builder α
  | some a => pure a
  | none => throw .malformed

end Builder

namespace Tree

/-- The children that are nodes. -/
def nodes (t : Tree) : List Tree := t.children.filter fun
  | .node .. => true
  | .leaf _ => false

/-- The first child with a label. -/
def child? (t : Tree) (l : Label) : Option Tree := t.children.find? (hasLabel l)

/-- The children that are tokens. -/
def tokens (t : Tree) : List Token := t.children.filterMap fun
  | .leaf t => some t
  | .node .. => none

/-- The first token of a kind. -/
def token? (t : Tree) (k : TokenKind) : Option Token := t.tokens.find? (·.kind = k)

def hasToken (t : Tree) (k : TokenKind) : Bool := (t.token? k).isSome

/-- The spelling of the name that the tree is about. -/
def nameText (t : Tree) : Builder String := return (← Builder.part (t.token? .name)).text

/-- The first token. -/
def head? (t : Tree) : Option Token := t.tokens.head?

/-- The node children of an optional tree. -/
def nodesOf (t : Option Tree) : List Tree := t.elim [] nodes

end Tree

def unaryOp : TokenKind → UnaryOp
  | .minus => .minus
  | .plus => .plus
  | .bang => .not
  | _ => .typeof

def binaryOp : TokenKind → BinaryOp
  | .plus => .add
  | .minus => .sub
  | .star => .mul
  | .slash => .div
  | .percent => .rem
  | .starStar => .pow
  | .less => .less
  | .greater => .greater
  | .lessEqual => .lessEqual
  | .greaterEqual => .greaterEqual
  | .strictEqual => .strictEqual
  | .strictNotEqual => .strictNotEqual
  | .looseEqual => .looseEqual
  | .looseNotEqual => .looseNotEqual
  | .and => .and
  | _ => .or

def assignOp : TokenKind → AssignOp
  | .plusAssign => some .add
  | .minusAssign => some .sub
  | .starAssign => some .mul
  | .slashAssign => some .div
  | .percentAssign => some .rem
  | _ => none

/-- The word that begins a variable declaration. -/
def varKind : TokenKind → Builder VarKind
  | .constWord => return .const
  | .letWord => return .lexical
  | .varWord => return .var
  | _ => throw .malformed

/-- The value of a literal that stands for a type. -/
def literalValue (token : Token) : Builder LiteralValue :=
  match token.kind with
  | .string => return .text (← Builder.literal (stringValue token.text))
  | .number => return .number (← Builder.literal (numberValue token.text))
  | kind => return .bool (kind = .trueWord)

/-- The name of a property, which may be written as a string. -/
def keyText (key : Token) : Builder String :=
  if key.kind = .string then Builder.literal (stringValue key.text) else return key.text

mutual

/-- A type. -/
def buildType : Nat → Tree → Builder TypeNode
  | 0, _ => throw .malformed
  | fuel + 1, t => do
    match t with
    | .leaf _ => throw .malformed
    | .node label extent _ =>
      match label, t.nodes with
      | .typeRef, _ =>
        let args ← (Tree.nodesOf (t.child? .typeArgs)).mapM (buildType fuel)
        return .ref (← Builder.mark extent) (← t.nameText) args
      | .arrayType, element :: _ =>
        let element ← buildType fuel element
        return .array (← Builder.mark extent) element
      | .union, parts =>
        let types ← parts.mapM (buildType fuel)
        return .union (← Builder.mark extent) (types.flatMap fun
          | .union _ inner => inner
          | type => [type])
      | .intersection, parts =>
        let types ← parts.mapM (buildType fuel)
        return .intersection (← Builder.mark extent) (types.flatMap fun
          | .intersection _ inner => inner
          | type => [type])
      | .literalType, _ =>
        let value ← literalValue (← Builder.part t.head?)
        return .literal (← Builder.mark extent) value
      | .voidType, _ => return .ref (← Builder.mark extent) "void" []
      | .typeLiteral, body :: _ =>
        let members ← buildMembers fuel body
        return .members (← Builder.mark extent) members
      | .fnType, nodes =>
        let params ← buildParams fuel (t.child? .paramList)
        let result ← buildType fuel (← Builder.part nodes.getLast?)
        return .function (← Builder.mark extent) params result
      | .parenType, inner :: _ => buildType fuel inner
      | _, _ => throw .malformed

/-- The parameters of a list, if there is one. -/
def buildParams : Nat → Option Tree → Builder (List Param)
  | _, none => return []
  | 0, some _ => throw .malformed
  | fuel + 1, some list => list.nodes.mapM fun node => do
    let type ← (node.child? .typeAnn).mapM (annotatedType fuel)
    return .mk (← Builder.mark node.extent) (← node.nameText) type (node.hasToken .question)
      (node.hasLabel .restParam)

/-- The type of an annotation. -/
def annotatedType : Nat → Tree → Builder TypeNode
  | 0, _ => throw .malformed
  | fuel + 1, ann => do buildType fuel (← Builder.part ann.nodes.head?)

/-- The members between the braces of an object type. -/
def buildMembers : Nat → Tree → Builder (List TypeMember)
  | 0, _ => throw .malformed
  | fuel + 1, body => body.nodes.mapM fun node => do
    let result ← (node.child? .returnAnn).mapM (annotatedType fuel)
    if node.hasLabel .propertySig then
      let type ← buildType fuel (← Builder.part node.nodes.getLast?)
      return .property (← Builder.mark node.extent) (← node.nameText) type (node.hasToken .question)
    let params ← buildParams fuel (node.child? .paramList)
    if node.hasLabel .methodSig then
      return .method (← Builder.mark node.extent) (← node.nameText) params result (node.hasToken .question)
    if node.hasLabel .callSig then return .call (← Builder.mark node.extent) params result
    throw .malformed

end

/-- The parameters of a type declaration. -/
def buildTypeParams (fuel : Nat) (list : Option Tree) : Builder (List TypeParam) :=
  (Tree.nodesOf list).mapM fun node => do
    let constraint ← node.nodes.head?.mapM (buildType fuel)
    return ⟨← Builder.mark node.extent, ← node.nameText, constraint⟩

mutual

/-- An expression. -/
def buildExpr : Nat → Tree → Builder Expr
  | 0, _ => throw .malformed
  | fuel + 1, t => do
    match t with
    | .leaf _ => throw .malformed
    | .node label extent children =>
      let here := Builder.mark extent
      match label, children with
      | .numberLit, .leaf token :: _ =>
        let value ← Builder.literal (numberValue token.text)
        return .number (← here) value token.text
      | .stringLit, .leaf token :: _ =>
        let value ← Builder.literal (stringValue token.text)
        return .string (← here) value
      | .trueLit, _ => return .boolean (← here) true
      | .falseLit, _ => return .boolean (← here) false
      | .nameRef, .leaf token :: _ => return .ident (← here) token.text
      | .paren, _ => buildExpr fuel (← Builder.part t.nodes.head?)
      | .objectLiteral, _ =>
        let properties ← t.nodes.mapM (buildProperty fuel)
        return .object (← here) properties
      | .arrayLiteral, _ =>
        let elements ← t.nodes.mapM (buildExpr fuel)
        return .array (← here) elements
      | .member, [target, _, .leaf name] =>
        let target ← buildExpr fuel target
        return .member (← Builder.mark name.extent) target name.text
      | .element, [target, _, index, _] =>
        let target ← buildExpr fuel target
        let index ← buildExpr fuel index
        return .element (← here) target index
      | .call, callee :: _ =>
        let args ← (Tree.nodesOf (t.child? .arguments)).mapM (buildExpr fuel)
        let callee ← buildExpr fuel callee
        return .call (← here) callee args
      | .unaryOp, [.leaf op, operand] =>
        let operand ← buildExpr fuel operand
        return .unary (← here) (unaryOp op.kind) operand
      | .awaitExpr, [_, operand] =>
        let operand ← buildExpr fuel operand
        return .await (← here) operand
      | .binary, [left, .leaf op, right] =>
        let left ← buildExpr fuel left
        let right ← buildExpr fuel right
        return .binary (← Builder.mark op.extent) (binaryOp op.kind) left right
      | .condExpr, [test, _, yes, _, no] =>
        let test ← buildExpr fuel test
        let yes ← buildExpr fuel yes
        let no ← buildExpr fuel no
        return .conditional (← here) test yes no
      | .assign, [target, .leaf op, value] =>
        let target ← buildExpr fuel target
        let value ← buildExpr fuel value
        return .assign (← here) (assignOp op.kind) target value
      | .asExpr, [inner, _, type] =>
        let inner ← buildExpr fuel inner
        let type ← buildType fuel type
        return .cast (← here) inner type
      | .arrowFunction, _ => match t.nodes with
        | [params, body] =>
          let (params, result) ← match params.token? .name with
            | some single => pure ([Param.mk (← Builder.mark single.extent) single.text none false false], none)
            | none =>
              let list ← buildParams fuel (params.child? .paramList)
              let result ← (params.child? .returnAnn).mapM (annotatedType fuel)
              pure (list, result)
          let body ← if body.hasLabel .block then Body.block <$> buildBlock fuel body
            else Body.expr <$> buildExpr fuel body
          return .arrow (← here) params body result (t.hasToken .asyncWord)
        | _ => throw .malformed
      | _, _ => throw .malformed

/-- A property of an object literal. -/
def buildProperty : Nat → Tree → Builder Property
  | 0, _ => throw .malformed
  | fuel + 1, t => do
    let key ← Builder.part t.head?
    let name ← keyText key
    if t.hasLabel .propShorthand then
      let value := Expr.ident (← Builder.mark key.extent) name
      return .mk (← Builder.mark t.extent) name value true
    let value ← buildExpr fuel (← Builder.part t.nodes.head?)
    return .mk (← Builder.mark t.extent) name value false

/-- A block. -/
def buildBlock : Nat → Tree → Builder Block
  | 0, _ => throw .malformed
  | fuel + 1, t => do
    let statements ← t.nodes.mapM (buildStmt fuel)
    return .mk (← Builder.mark t.extent) statements

/-- The variables of a declaration. -/
def buildVars : Nat → Tree → Bool → Builder Stmt
  | 0, _, _ => throw .malformed
  | fuel + 1, t, ambient => do
    let kind ← varKind (← Builder.part t.head?).kind
    let declarations ← t.nodes.mapM fun node => do
      let type ← (node.child? .typeAnn).mapM (annotatedType fuel)
      let init ← (node.nodes.filter (!Tree.hasLabel .typeAnn ·)).head?.mapM (buildExpr fuel)
      return VarDeclarator.mk (← Builder.mark node.extent) (← node.nameText) type init
    return .var (← Builder.mark t.extent) kind declarations ambient

/-- A statement. -/
def buildStmt : Nat → Tree → Builder Stmt
  | 0, _ => throw .malformed
  | fuel + 1, t => do
    let here := Builder.mark t.extent
    match t with
    | .leaf _ => throw .malformed
    | .node label _ _ =>
      match label, t.nodes with
      | .exprStmt, expr :: _ =>
        let expr ← buildExpr fuel expr
        return .expr (← here) expr
      | .varStmt, list :: _ => buildVars fuel list false
      | .ambientVar, list :: _ => buildVars fuel list true
      | .returnStmt, values =>
        let value ← values.head?.mapM (buildExpr fuel)
        return .ret (← here) value
      | .breakStmt, _ => return .brk (← here)
      | .continueStmt, _ => return .cont (← here)
      | .emptyStmt, _ => return .empty (← here)
      | .block, _ => return .block (← buildBlock fuel t)
      | .ifStmt, test :: yes :: no =>
        let no ← no.head?.mapM (buildStmt fuel)
        let test ← buildExpr fuel test
        let yes ← buildStmt fuel yes
        return .cond (← here) test yes no
      | .whileStmt, [test, body] =>
        let test ← buildExpr fuel test
        let body ← buildStmt fuel body
        return .loop (← here) test body
      | .functionDecl, _ => buildFunction fuel t false
      | .ambientFunction, sig :: _ => buildFunction fuel sig true
      | .typeAlias, nodes =>
        let typeParams ← buildTypeParams fuel (t.child? .typeParams)
        let type ← buildType fuel (← Builder.part nodes.getLast?)
        return .typeAlias (← here) (← t.nameText) typeParams type
      | .interfaceDecl, _ => buildInterface fuel t
      | .ambientInterface, decl :: _ => buildInterface fuel decl
      | .enumDecl, _ => buildEnum fuel t false
      | .ambientEnum, decl :: _ => buildEnum fuel decl true
      | .classDecl, _ => return .classDecl (← here) (← t.nameText)
      | .importDecl, nodes =>
        if !nodes.isEmpty then
          let word ← Builder.part (t.token? .name)
          if word.text ≠ "from" then throw (.missingFrom word.extent)
        let module ← Builder.literal (stringValue (← Builder.part (t.token? .string)).text)
        return .importDecl (← here) module
      | _, _ => throw .malformed

/-- A function declaration or the signature of one. -/
def buildFunction : Nat → Tree → Bool → Builder Stmt
  | 0, _, _ => throw .malformed
  | fuel + 1, t, ambient => do
    let params ← buildParams fuel (t.child? .paramList)
    let result ← (t.child? .returnAnn).mapM (annotatedType fuel)
    let body ← (t.child? .block).mapM (buildBlock fuel)
    return .function (← Builder.mark t.extent) (← t.nameText) params result body (t.hasToken .asyncWord) ambient

/-- An interface. -/
def buildInterface : Nat → Tree → Builder Stmt
  | 0, _ => throw .malformed
  | fuel + 1, t => do
    let typeParams ← buildTypeParams fuel (t.child? .typeParams)
    let parents ← (Tree.nodesOf (t.child? .heritage)).mapM (buildType fuel)
    let members ← (t.child? .objectTypeBody).mapM (buildMembers fuel)
    return .interface (← Builder.mark t.extent) (← t.nameText) typeParams parents (members.getD [])

/-- An enumeration. -/
def buildEnum : Nat → Tree → Bool → Builder Stmt
  | 0, _, _ => throw .malformed
  | fuel + 1, t, ambient => do
    let members ← (Tree.nodesOf (t.child? .enumBody)).mapM fun node => do
      let init ← node.nodes.head?.mapM (buildExpr fuel)
      return EnumMember.mk (← Builder.mark node.extent) (← node.nameText) init
    return .enum (← Builder.mark t.extent) (← t.nameText) members (t.hasToken .constWord) ambient

end

end Fragment.Source
