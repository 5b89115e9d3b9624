import Fragment.Source.Grammar

/-! The parsing automaton of the grammar.
States are sets of items, a production with a mark in its symbols. A state shifts the symbols after
a mark, and reduces a production whose mark has reached the end on the tokens that may follow there:
those that follow the rule in some path to this state. Where both are possible it shifts. -/
namespace Fragment.Source

/-- A set of token kinds, a bit for each. -/
abbrev KindSet := BitVec 80

namespace KindSet

def bit (k : TokenKind) : KindSet := BitVec.twoPow 80 k.ctorIdx

def has (s : KindSet) (k : TokenKind) : Bool := s.getLsbD k.ctorIdx

end KindSet

/-- A production, by its number, and how many of its symbols stand before the mark. -/
structure Item where
  production : Nat
  mark : Nat
  deriving DecidableEq

/-- The item with one symbol more before the mark. -/
def Item.next (item : Item) : Item := ⟨item.production, item.mark + 1⟩

/-- What a state does with a token. -/
inductive Action where
  | shift (state : Nat)
  | reduce (production : Nat)

/-- A state of the automaton while it is being built. -/
structure ItemState where
  items : List Item
  /-- The state after each symbol. -/
  next : List (Symbol × Nat)

/-- The finished automaton. -/
structure Automaton where
  productions : Array Production
  /-- For each state, what it does with each kind of token that it accepts. -/
  actions : Array (List (TokenKind × Action))
  /-- For each state, the state after a rule has been recognized. -/
  gotos : Array (List (Rule × Nat))

namespace Automaton

/-- The productions of the grammar arranged for quick access. -/
structure Tables where
  productions : Array Production
  /-- The productions of each rule, by their numbers. -/
  byRule : Array (List Nat)
  /-- The tokens that each rule can begin with. -/
  first : Array KindSet

namespace Tables

/-- The symbols after the mark. -/
def afterMark (t : Tables) (item : Item) : List Symbol :=
  match t.productions[item.production]? with
  | some p => p.symbols.drop item.mark
  | none => []

/-- The symbol after the mark. -/
def symbolAt (t : Tables) (item : Item) : Option Symbol := (t.afterMark item).head?

def ofRule (t : Tables) (r : Rule) : List Nat := t.byRule.getD r.ctorIdx []

end Tables

/-- How many rules there are room for. -/
def ruleCount : Nat := 80

/-- The tokens that a symbol can begin with. -/
def firstOf (first : Array KindSet) : Symbol → KindSet
  | .token k => KindSet.bit k
  | .rule r => first.getD r.ctorIdx 0

/-- Adds what each production says about the beginnings of its rule. Only the whole input can be
empty, so the first symbol decides. -/
def growFirst (productions : Array Production) (first : Array KindSet) : Array KindSet :=
  productions.foldl (fun first p => match p.symbols with
    | [] => first
    | s :: _ => first.modify p.rule.ctorIdx (· ||| firstOf first s)) first

def tables (productions : Array Production) : Tables where
  productions := productions
  byRule := (Array.range ruleCount).map fun r =>
    (List.range productions.size).filter fun i => productions[i]?.any (·.rule.ctorIdx = r)
  first := Nat.repeat (growFirst productions) ruleCount (Array.replicate ruleCount 0)

/-- The rules after the marks. -/
def wanted (t : Tables) (items : List Item) : List Rule :=
  items.filterMap fun item => match t.symbolAt item with
    | some (.rule r) => some r
    | _ => none

/-- The productions of some rules, with the mark in front. -/
def beginnings (t : Tables) (rules : List Rule) : List Item := rules.flatMap fun r => (t.ofRule r).map (⟨·, 0⟩)

/-- Adds the rules that the productions of the rules in `todo` can begin with. -/
def reachRules (t : Tables) : Nat → List Rule → List Rule → List Rule
  | 0, _, found => found
  | _, [], found => found
  | fuel + 1, r :: todo, found =>
    let new := ((wanted t (beginnings t [r])).filter (!found.contains ·)).eraseDups
    reachRules t fuel (new ++ todo) (found ++ new)

/-- The kernel items and the beginnings of all rules that can follow a mark. -/
def closure (t : Tables) (kernel : List Item) : List Item :=
  let rules := (wanted t kernel).eraseDups
  (kernel ++ beginnings t (reachRules t ruleCount rules rules)).eraseDups

/-- The items after a symbol. -/
def advance (t : Tables) (items : List Item) (s : Symbol) : List Item :=
  (items.filter (t.symbolAt · = some s)).map Item.next

/-- The symbols after the marks, and the kernels that they lead to. -/
def successors (t : Tables) (items : List Item) : List (Symbol × List Item) :=
  (items.filterMap t.symbolAt).eraseDups.map fun s => (s, advance t items s)

/-- Adds the kernels that those from number `i` on lead to. -/
def explore (t : Tables) : Nat → Nat → Array (List Item) → Array (List Item)
  | 0, _, found => found
  | fuel + 1, i, found =>
    match found[i]? with
    | none => found
    | some kernel =>
      explore t fuel (i + 1) ((successors t (closure t kernel)).foldl
        (fun found (_, k) => if found.contains k then found else found.push k) found)

/-- How many places for a mark there are. -/
def itemCount (t : Tables) : Nat := (t.productions.toList.map (·.symbols.length + 1)).foldr (· + ·) 0

/-- The kernels reachable from the start of the first production. A kernel has each item at most
once, which bounds how many there are. -/
def kernels (t : Tables) : Array (List Item) :=
  explore t (Nat.pow (2 * itemCount t) (itemCount t) + 1) 0 #[[⟨0, 0⟩]]

/-- The states, with room for the same number of items in each. -/
structure ItemTable where
  states : Array ItemState
  width : Nat

def itemTable (t : Tables) : ItemTable :=
  let kernels := kernels t
  let states := kernels.map fun kernel =>
    let items := closure t kernel
    ⟨items, (successors t items).map fun (s, k) => (s, kernels.idxOf k)⟩
  ⟨states, (states.toList.map (·.items.length)).max?.getD 0⟩

namespace ItemTable

def items (g : ItemTable) (state : Nat) : List Item := (g.states[state]?.map (·.items)).getD []

/-- The place of the lookaheads of an item. -/
def place (g : ItemTable) (state : Nat) (item : Item) : Nat := state * g.width + (g.items state).idxOf item

end ItemTable

/-- What flows to a place: some kinds, or all that another place has. -/
inductive Origin where
  | kinds (set : KindSet)
  | place (n : Nat)

/-- A place receives what its origin has. -/
structure Flow where
  origin : Origin
  target : Nat

def Origin.value (looks : Array KindSet) : Origin → KindSet
  | .kinds set => set
  | .place n => looks.getD n 0

def Flow.apply (looks : Array KindSet) (f : Flow) : Array KindSet :=
  let set := f.origin.value looks
  looks.modify f.target (· ||| set)

/-- Lets everything flow until nothing changes. -/
def settle (flows : List Flow) : Nat → Array KindSet → Array KindSet
  | 0, looks => looks
  | fuel + 1, looks =>
    let looks' := flows.foldl Flow.apply looks
    if looks' == looks then looks else settle flows fuel looks'

/-- The least sets for some places that receive what flows to them. Every round adds something to
one of them, and each holds at most as many kinds as there is room for. -/
def solve (flows : List Flow) (places : Nat) : Array KindSet :=
  settle flows (places * Nat.pow 2 80 + 1) (Array.replicate places 0)

/-- What may follow a rule: the beginnings of the next symbol, or else what follows the whole. -/
def follower (t : Tables) (rest : List Symbol) (whole : Nat) : Origin :=
  match rest with
  | [] => .place whole
  | s :: _ => .kinds (firstOf t.first s)

/-- What follows an item follows it when its mark has moved, and the rule after the mark is followed
by what comes next. -/
def itemFlows (t : Tables) (g : ItemTable) (i : Nat) (next : List (Symbol × Nat)) (item : Item) : List Flow :=
  match t.afterMark item with
  | [] => []
  | s :: rest =>
    let moved := match next.lookup s with
      | some n => [⟨.place (g.place i item), g.place n item.next⟩]
      | none => []
    let opened := match s with
      | .rule r => (t.ofRule r).map fun q => ⟨follower t rest (g.place i item), g.place i ⟨q, 0⟩⟩
      | .token _ => []
    moved ++ opened

def flows (t : Tables) (g : ItemTable) : List Flow :=
  g.states.toList.zipIdx.flatMap fun (state, i) => state.items.flatMap (itemFlows t g i state.next)

def lookaheads (t : Tables) (g : ItemTable) : Array KindSet := solve (flows t g) (g.states.size * g.width)

/-- Every kind of token. -/
def allKinds : List TokenKind := (List.range (TokenKind.finish.ctorIdx + 1)).map TokenKind.ofNat

/-- The shift or the step over a rule that leads to another state. -/
def shiftOf : Symbol × Nat → Option (TokenKind × Action)
  | (.token k, n) => some (k, .shift n)
  | (.rule _, _) => none

def gotoOf : Symbol × Nat → Option (Rule × Nat)
  | (.rule r, n) => some (r, n)
  | (.token _, _) => none

/-- What a state does with each kind of token. -/
def stateActions (t : Tables) (g : ItemTable) (looks : Array KindSet) (i : Nat) (state : ItemState) :
    List (TokenKind × Action) :=
  let shifts := state.next.filterMap shiftOf
  let reduces := (state.items.filter fun item => (t.afterMark item).isEmpty).flatMap fun item =>
    (allKinds.filter (looks.getD (g.place i item) 0).has).map fun k => (k, Action.reduce item.production)
  shifts ++ reduces.filter fun (k, _) => !shifts.any (·.1 = k)

/-- The automaton of some productions, the first of which is that of the whole input. -/
def ofProductions (productions : Array Production) : Automaton :=
  let t := tables productions
  let g := itemTable t
  let looks := lookaheads t g
  { productions
    actions := (g.states.toList.zipIdx.map fun (state, i) => stateActions t g looks i state).toArray
    gotos := g.states.map (·.next.filterMap gotoOf) }

/-- The automaton of the fragment language. -/
def fragment : Automaton := ofProductions Grammar.productions

/-- What a state does with a kind of token. -/
def action? (a : Automaton) (state : Nat) (k : TokenKind) : Option Action :=
  (a.actions.getD state []).lookup k

/-- The state after a rule. -/
def goto? (a : Automaton) (state : Nat) (r : Rule) : Option Nat := (a.gotos.getD state []).lookup r

/-- The kinds of token that a state accepts. -/
def expected (a : Automaton) (state : Nat) : List TokenKind := (a.actions.getD state []).map (·.1)

end Automaton

end Fragment.Source
