import Fragment.Source.Automaton

/-! Concrete trees, and their recognition by the automaton.
Recognition keeps a stack of states; next to each state stand the trees of the symbol that led to
it. A token that a state does not accept stops it, and the error names what would have been
accepted. -/
namespace Fragment.Source

/-- A tree over the tokens of a text. Its extent reaches from its first token to its last. -/
inductive Tree where
  | leaf (token : Token)
  | node (label : Label) (extent : Extent) (children : List Tree)

namespace Tree

def extent : Tree → Extent
  | .leaf t => t.extent
  | .node _ e _ => e

/-- The extent of some neighbouring trees. -/
def extentOf (children : List Tree) : Extent :=
  match children.head?, children.getLast? with
  | some first, some last => first.extent.join last.extent
  | _, _ => ⟨⟨1, 1⟩, ⟨1, 1⟩⟩

def children : Tree → List Tree
  | .leaf _ => []
  | .node _ _ cs => cs

def hasLabel (l : Label) : Tree → Bool
  | .leaf _ => false
  | .node l' _ _ => l' = l

end Tree

/-- A token that cannot stand where it does. -/
structure UnexpectedToken where
  token : Token
  expected : List TokenKind

/-- An entry of the stack: a state and the trees of the symbol before it. -/
structure StackEntry where
  state : Nat
  trees : List Tree

/-- What a production makes of the trees of its symbols. -/
def Make.apply (m : Make) (children : List Tree) : List Tree :=
  match m with
  | .node label => [.node label (Tree.extentOf children) children]
  | .pass => children

namespace Automaton

/-- The state on top of the stack. -/
def top (stack : List StackEntry) : Nat := (stack.head?.map (·.state)).getD 0

/-- The stack after the reduction of a production. -/
def reduce? (a : Automaton) (stack : List StackEntry) (production : Nat) : Option (List StackEntry) := do
  let p ← a.productions[production]?
  let count := p.symbols.length
  let children := (stack.take count).reverse.flatMap (·.trees)
  let rest := stack.drop count
  let state ← a.goto? (top rest) p.rule
  return ⟨state, p.make.apply children⟩ :: rest

/-- Recognizes the tokens, of which the last is the end of the input. Each token causes a bounded
number of reductions. -/
def recognize (a : Automaton) : Nat → List StackEntry → List Token → Except UnexpectedToken (List Tree)
  | _, _, [] => .ok []
  | 0, _, t :: _ => .error ⟨t, []⟩
  | fuel + 1, stack, t :: rest =>
    let state := top stack
    match a.action? state t.kind with
    | none => .error ⟨t, a.expected state⟩
    | some (.shift next) =>
      if t.kind = .finish then .ok ((stack.head?.map (·.trees)).getD [])
      else a.recognize fuel (⟨next, [.leaf t]⟩ :: stack) rest
    | some (.reduce production) =>
      match a.reduce? stack production with
      | some stack => a.recognize fuel stack (t :: rest)
      | none => .error ⟨t, []⟩

end Automaton

/-- The end of the input, in the place of the last token. -/
def endToken (ts : List Token) : Token :=
  match ts.getLast? with
  | some t => t.become .finish ""
  | none => ⟨.finish, "", ⟨⟨1, 1⟩, ⟨1, 1⟩⟩⟩

/-- The tree of the whole input, from tokens that have been laid out. -/
def treeOf (ts : List Token) : Except UnexpectedToken (List Tree) :=
  Automaton.fragment.recognize (64 * (ts.length + 2)) [⟨0, []⟩] (ts ++ [endToken ts])

end Fragment.Source
