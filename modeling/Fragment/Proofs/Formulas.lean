import Fragment.Proofs.StateContents
import Fragment.Source.Parse

/-! Formulas: expressions of names, literals, operators and conditionals, and how they are printed.
An operand stands in parentheses exactly where it binds less tightly than its place needs. The automaton
reads the words of a formula back, in every state in which an expression of that tightness may begin. -/
namespace Fragment.Source

structure Word where
  kind : TokenKind
  text : String

def Token.word (t : Token) : Word := ⟨t.kind, t.text⟩

def UnaryOp.kind : UnaryOp → TokenKind
  | .minus => .minus
  | .plus => .plus
  | .not => .bang
  | .typeof => .typeofWord

namespace BinaryOp

def kind : BinaryOp → TokenKind
  | .add => .plus
  | .sub => .minus
  | .mul => .star
  | .div => .slash
  | .rem => .percent
  | .pow => .starStar
  | .less => .less
  | .greater => .greater
  | .lessEqual => .lessEqual
  | .greaterEqual => .greaterEqual
  | .strictEqual => .strictEqual
  | .strictNotEqual => .strictNotEqual
  | .looseEqual => .looseEqual
  | .looseNotEqual => .looseNotEqual
  | .and => .and
  | .or => .or

/-- How tightly an operator binds. Conditionals bind at level 2, unary operators at 10, names, literals and
parentheses at 12. -/
def level : BinaryOp → Nat
  | .or => 3
  | .and => 4
  | .strictEqual | .strictNotEqual | .looseEqual | .looseNotEqual => 5
  | .less | .greater | .lessEqual | .greaterEqual => 6
  | .add | .sub => 7
  | .mul | .div | .rem => 8
  | .pow => 9

-- Operators group to the left, but powers to the right, and only what may be called stands before `**`.
def leftNeed (op : BinaryOp) : Nat := if op = .pow then 11 else op.level

def rightNeed (op : BinaryOp) : Nat := if op = .pow then op.level else op.level + 1

end BinaryOp

/-- The words of something that binds at `own`, in a place that needs `need`. -/
def bracketed (own need : Nat) (ws : List Word) : List Word :=
  if own < need then ⟨.leftParen, "("⟩ :: (ws ++ [⟨.rightParen, ")"⟩]) else ws

/-- The words of a formula in a place that needs a tightness. -/
def Expr.words : Expr → Nat → List Word
  | .ident _ name, _ => [⟨.name, name⟩]
  | .number _ _ text, _ => [⟨.number, text⟩]
  | .boolean _ value, _ => [if value then ⟨.trueWord, "true"⟩ else ⟨.falseWord, "false"⟩]
  | .unary _ op operand, need => bracketed 10 need (⟨op.kind, op.text⟩ :: operand.words 10)
  | .binary _ op left right, need =>
    bracketed op.level need (left.words op.leftNeed ++ ⟨op.kind, op.text⟩ :: right.words op.rightNeed)
  | .conditional _ test yes no, need =>
    bracketed 2 need (test.words 3 ++ ⟨.question, "?"⟩ :: (yes.words 1 ++ ⟨.colon, ":"⟩ :: no.words 1))
  | _, _ => []

def Expr.print (e : Expr) : String := " ".intercalate ((e.words 0).map (·.text))

def isName (name : String) : Prop :=
  name.toList.head?.any isNameStart ∧ name.toList.all isNamePart ∧ TokenKind.ofWord name = .name

def isNumeral (text : String) : Prop := text ≠ "" ∧ takeNumber text.toList = text.toList

/-- An expression of names, number and boolean literals, unary and binary operators and conditionals. -/
inductive Formula : Expr → Prop
  | name (mark : Mark) {name : String} (spelled : isName name) : Formula (.ident mark name)
  | number (mark : Mark) {text : String} {value : Number} (spelled : isNumeral text)
      (denotes : numberValue text = .ok value) : Formula (.number mark value text)
  | boolean (mark : Mark) (value : Bool) : Formula (.boolean mark value)
  | unary (mark : Mark) (op : UnaryOp) {operand : Expr} (inner : Formula operand) : Formula (.unary mark op operand)
  | binary (mark : Mark) (op : BinaryOp) {left right : Expr} (first : Formula left) (second : Formula right) :
      Formula (.binary mark op left right)
  | conditional (mark : Mark) {test yes no : Expr} (decides : Formula test) (first : Formula yes)
      (second : Formula no) : Formula (.conditional mark test yes no)

/-- A concrete tree of so many tokens that stands for a formula. -/
inductive Shows : Nat → Tree → Expr → Prop
  | name (extent : Extent) (t : Token) (mark : Mark) : Shows 1 (.node .nameRef extent [.leaf t]) (.ident mark t.text)
  | number (extent : Extent) (t : Token) (mark : Mark) {value : Number} (denotes : numberValue t.text = .ok value) :
      Shows 1 (.node .numberLit extent [.leaf t]) (.number mark value t.text)
  | boolean (extent : Extent) (t : Token) (mark : Mark) (value : Bool) :
      Shows 1 (.node (if value then .trueLit else .falseLit) extent [.leaf t]) (.boolean mark value)
  | paren {n : Nat} (extent : Extent) (t t' : Token) {tree : Tree} {e : Expr} (inner : Shows n tree e) :
      Shows (n + 2) (.node .paren extent [.leaf t, tree, .leaf t']) e
  | unary {n : Nat} (extent : Extent) {t : Token} (mark : Mark) {op : UnaryOp} (is : t.kind = op.kind) {tree : Tree}
      {operand : Expr} (inner : Shows n tree operand) :
      Shows (n + 1) (.node .unaryOp extent [.leaf t, tree]) (.unary mark op operand)
  | binary {n n' : Nat} (extent : Extent) {t : Token} (mark : Mark) {op : BinaryOp} (is : t.kind = op.kind)
      {tree tree' : Tree} {left right : Expr} (first : Shows n tree left) (second : Shows n' tree' right) :
      Shows (n + n' + 1) (.node .binary extent [tree, .leaf t, tree']) (.binary mark op left right)
  | conditional {n n' n'' : Nat} (extent : Extent) (t t' : Token) (mark : Mark) {tree tree' tree'' : Tree}
      {test yes no : Expr} (decides : Shows n tree test) (first : Shows n' tree' yes) (second : Shows n'' tree'' no) :
      Shows (n + n' + n'' + 2) (.node .condExpr extent [tree, .leaf t, tree', .leaf t', tree''])
        (.conditional mark test yes no)

namespace Grammar

open Automaton hiding productions

def joined (op : BinaryOp) : Production :=
  ⟨level op.level, [.rule (level op.leftNeed), .token op.kind, .rule (level op.rightNeed)], .node .binary⟩

def choice : Production :=
  ⟨level 2, [.rule (level 3), .token .question, .rule (level 1), .token .colon, .rule (level 1)], .node .condExpr⟩

def operators : List BinaryOp :=
  [.add, .sub, .mul, .div, .rem, .pow, .less, .greater, .lessEqual, .greaterEqual, .strictEqual, .strictNotEqual,
    .looseEqual, .looseNotEqual, .and, .or]

theorem operatorsJoin : ∀ op ∈ operators, joined op ∈ productions.toList := by decide

set_option maxRecDepth 2048 in
theorem operatorsJoinAlone : ∀ p ∈ productions.toList, (rank p.rule).isSome → ∀ op ∈ operators,
    p.symbols[0]? = some (Symbol.rule (level op.leftNeed)) → p.symbols[1]? = some (Symbol.token op.kind) → p = joined op := by
  decide

theorem memOperators (op : BinaryOp) : op ∈ operators := by cases op <;> decide

theorem joinedMember (op : BinaryOp) : joined op ∈ productions :=
  Array.mem_toList_iff.mp (operatorsJoin op (memOperators op))

theorem joinedAlone {p : Production} (is : p ∈ productions) (ranked : (rank p.rule).isSome) {op : BinaryOp}
    (before : p.symbols[0]? = some (Symbol.rule (level op.leftNeed))) (at_ : p.symbols[1]? = some (Symbol.token op.kind)) :
    p = joined op :=
  operatorsJoinAlone p (Array.mem_toList_iff.mpr is) ranked op (memOperators op) before at_

set_option maxRecDepth 2048 in
theorem choiceAlone : choice ∈ productions.toList ∧ ∀ p ∈ productions.toList, (rank p.rule).isSome →
    p.symbols[0]? = some (Symbol.rule (level 3)) → p.symbols[1]? = some (Symbol.token .question) → p = choice := by
  decide

/-- The rules that begin where a branch of a conditional does. -/
def branchRules : List Rule :=
  [.assignExpr, .arrowFunction, .arrowParams, .conditional, .logicalOr, .logicalAnd, .equality, .relational, .additive,
    .multiplicative, .exponent, .unary, .postfixExpr, .primary]

/-- What stands before a branch of a conditional. -/
def branch (m : Nat) : Contents := ⟨[(choice, m)], branchRules⟩

set_option maxRecDepth 2048 in
theorem branchClosed : (branch 2).Closed ∧ (branch 4).Closed := by decide

theorem unaryBegins (op : UnaryOp) : op.kind ∈ starts ∧ op.kind ≠ .name ∧ op.kind ≠ .finish ∧
    begun op.kind = ⟨.unary, [.token op.kind, .rule .unary], .node .unaryOp⟩ := by
  cases op <;> decide

theorem Stops.tighter {l l' : Nat} {k : TokenKind} (stops : Stops l k) (above : l ≤ l') : Stops l' k :=
  ⟨stops.1, fun o inside more => stops.2 o inside (by omega)⟩

theorem closerStops {k : TokenKind} (closer : k ∈ closers) : Stops 0 k :=
  ⟨fun arrow => absurd (arrow ▸ closer) (by decide), fun l inside _ => closersEnd k closer l inside⟩

theorem questionStops : Stops 3 .question := ⟨by decide, by decide⟩

-- Nothing goes on with a conditional, so what stops it stops its last branch.
theorem Stops.branch {k : TokenKind} (stops : Stops 2 k) : Stops 1 k := by
  refine ⟨stops.1, fun l inside more => ?_⟩
  rcases Nat.lt_or_ge 2 l with tighter | looser
  · exact stops.2 l inside tighter
  · obtain rfl : l = 2 := by omega
    exact List.not_mem_nil

section Operators

variable (op : BinaryOp)

theorem levelInside : op.level ≤ op.leftNeed ∧ op.leftNeed ≤ 12 ∧ op.level ≤ op.rightNeed ∧ op.rightNeed ≤ 12 := by
  cases op <;> decide

theorem operatorStops : Stops op.leftNeed op.kind := by
  constructor
  · cases op <;> decide
  · cases op <;> decide

theorem operatorInner : op.kind ∉ closers ∧ op.kind ≠ .finish := by
  cases op <;> decide

-- What stops an operation stops its right operand: it binds more tightly, or nothing goes on with a power.
theorem rightStops {k : TokenKind} (stops : Stops op.level k) : k ∉ continuations op.rightNeed := by
  by_cases power : op = .pow
  · subst power
    exact List.not_mem_nil
  · have above : op.rightNeed = op.level + 1 := by simp [BinaryOp.rightNeed, power]
    exact stops.2 _ (by have := levelInside op; omega) (by omega)

end Operators

/-- The words of an expression are read in every seat that is loose enough: the tree of the expression is put
on the stack as one of the level, and a token that stops it comes next. The steps leave some to spare. -/
def Reads (spare l : Nat) (ws : List Word) (e : Expr) : Prop :=
  ∀ (stack : List StackEntry) ⦃p : Production⦄ ⦃m n : Nat⦄ ⦃t : Token⦄, Seat (top stack) p m n → n ≤ l →
    Opened (top stack) l t.kind → Stops l t.kind → ∀ ⦃ts : List Token⦄, ts.map Token.word = ws → ∀ rest : List Token,
    ∃ tree j cost, Shows ts.length tree e ∧ next? productions (top stack) (.rule (level l)) = some j ∧
      cost + spare ≤ 16 * ts.length ∧
      fragment.Reaches cost stack (ts ++ t :: rest) (⟨j, [tree]⟩ :: stack) (t :: rest)

section Reading

variable {e : Expr} {ws : List Word} {l : Nat}

theorem Reads.climb {o : Nat} (reads : Reads 12 o ws e) (tighter : l ≤ o) (inside : o ≤ 12) : Reads 0 l ws e := by
  intro stack p m n t seat above opened stops ts words rest
  obtain ⟨tree, j, cost, shows, leads, few, reaches⟩ := reads stack seat (above.trans tighter) (opened.deeper tighter inside)
    (stops.tighter tighter) words rest
  obtain ⟨j', leads', up⟩ := seat.climb above tighter inside opened stops rfl [tree] rest leads
  exact ⟨tree, j', cost + (o - l), shows, leads', by omega, reaches.trans up⟩

-- The stack after the reduction of a production whose symbols have all been read.
theorem nodeReaches {p : Production} (label : Label) (entries below : List StackEntry) (makes : p.make = .node label)
    (count : entries.length = p.symbols.length) {t : Token}
    (reduces : Reduces productions (top (entries ++ below)) p t.kind) {j : Nat}
    (leads : next? productions (top below) (.rule p.rule) = some j) (rest : List Token) : ∃ extent,
    fragment.Reaches 1 (entries ++ below) (t :: rest)
      (⟨j, [.node label extent (entries.reverse.flatMap (·.trees))]⟩ :: below) (t :: rest) := by
  refine ⟨Tree.extentOf (entries.reverse.flatMap (·.trees)), ?_⟩
  have reduced := reduceReaches entries below rest count reduces leads
  rwa [makes] at reduced

theorem readsLeaf {k : TokenKind} {text : String} {label : Label} (start : k ∈ starts) (inner : k ≠ .finish)
    (alone : begun k = ⟨.primary, [.token k], .node label⟩)
    (shows : ∀ extent t, t.text = text → Shows 1 (.node label extent [.leaf t]) e) : Reads 12 12 [⟨k, text⟩] e := by
  intro stack p m n t seat above opened stops ts words rest
  obtain ⟨leaf, rfl, word⟩ := List.map_eq_singleton_iff.mp words
  cases word
  have awaits : Awaits productions (top stack) (begun leaf.kind) 0 t.kind :=
    opened _ (begunMember start) (by rw [alone]; rfl)
  obtain ⟨j, shifts⟩ := awaits.has.leads (by rw [alone]; rfl)
  obtain ⟨j', leads⟩ := seat.leads above le_rfl
  have reduces := seat.reducesLeaf start (by rw [alone]) awaits stops.1 shifts
  have shift : fragment.Reaches 1 stack (leaf :: t :: rest) (⟨j, [.leaf leaf]⟩ :: stack) (t :: rest) :=
    shiftReaches shifts inner
  obtain ⟨extent, reduce⟩ := nodeReaches label [⟨j, [.leaf leaf]⟩] stack
    (by rw [alone]) (by rw [alone]; rfl) reduces (by rw [alone]; exact leads) rest
  exact ⟨_, j', 1 + 1, shows extent leaf rfl, leads, by simp, shift.trans reduce⟩

-- A token of a production is shifted, and an expression comes next.
theorem shiftSeat (stack : List StackEntry) {q : Production} {m n : Nat} {k follow : TokenKind} {t : Token}
    (kind : t.kind = k) (inner : k ≠ .finish) (awaits : Awaits productions (top stack) q m follow)
    (at_ : q.symbols[m]? = some (.token k))
    (only : ∀ p' m', Has productions (top stack) p' m' → p'.symbols[m']? = some (.token k) → p' = q ∧ m' = m)
    (inside : n ≤ 12) (next : q.symbols[m + 1]? = some (.rule (level n)))
    (behind : ∀ s, q.symbols[m + 2]? = some s → ∃ k ∈ closers, s = .token k) (rest : List Token) :
    ∃ j, Seat j q (m + 1) n ∧ Awaits productions j q (m + 1) follow ∧
      fragment.Reaches 1 stack (t :: rest) (⟨j, [.leaf t]⟩ :: stack) rest := by
  obtain ⟨j, shifts⟩ := awaits.has.leads at_
  subst kind
  exact ⟨j, seatBehind shifts awaits.has at_ only inside next behind, awaits.moves someProductions at_ shifts,
    shiftReaches shifts inner⟩

theorem readsUnary (op : UnaryOp) (mark : Mark) (reads : Reads 0 10 ws e) :
    Reads 12 10 (⟨op.kind, op.text⟩ :: ws) (.unary mark op e) := by
  intro stack p m n t seat above opened stops ts words rest
  obtain ⟨t', ts, rfl, word, words⟩ := List.map_eq_cons_iff.mp words
  have kind : t'.kind = op.kind := congrArg Word.kind word
  obtain ⟨start, notName, inner, begins⟩ := unaryBegins op
  let q := begun op.kind
  have awaits : Awaits productions (top stack) q 0 t.kind := opened q (begunMember start) (by simp [q, begins, level])
  obtain ⟨j, seat₁, awaits₁, shift⟩ := shiftSeat stack (n := 10) kind inner awaits (by simp [q, begins])
    (fun _ _ => seat.begunStart start notName) (by decide) (by simp [q, begins, level]) (by simp [q, begins])
    (ts ++ t :: rest)
  obtain ⟨tree, j₂, cost, shows, leads, few, reaches⟩ := reads (⟨j, [.leaf t']⟩ :: stack) seat₁ le_rfl
    (openedLast awaits₁ (by simp [q, begins, level])) stops words rest
  have reduces : Reduces productions j₂ q t.kind :=
    seat₁.reducesOwn (by simp [q, begins]) awaits₁ List.not_mem_nil leads
  obtain ⟨j₃, leads₃⟩ := seat.leads above (by decide)
  obtain ⟨extent, reduce⟩ := nodeReaches .unaryOp [⟨j₂, [tree]⟩, ⟨j, [.leaf t']⟩] stack
    (by simp [q, begins]) (by simp [q, begins]) reduces (by simpa [q, begins, level] using leads₃) rest
  refine ⟨_, j₃, 1 + cost + 1, .unary extent mark kind shows, leads₃, ?_, (shift.trans reaches).trans reduce⟩
  simp only [List.length_cons]
  omega

theorem readsParen (reads : Reads 0 0 ws e) :
    Reads 12 12 (⟨.leftParen, "("⟩ :: (ws ++ [⟨.rightParen, ")"⟩])) e := by
  intro stack p m n t seat above opened stops ts words rest
  obtain ⟨t₁, tail, rfl, word₁, later⟩ := List.map_eq_cons_iff.mp words
  obtain ⟨ts, tail, rfl, inner, last⟩ := List.map_eq_append_iff.mp later
  obtain ⟨t₂, rfl, word₂⟩ := List.map_eq_singleton_iff.mp last
  have kind₁ : t₁.kind = .leftParen := congrArg Word.kind word₁
  have kind₂ : t₂.kind = .rightParen := congrArg Word.kind word₂
  let q := begun .leftParen
  have start : TokenKind.leftParen ∈ starts := by decide
  have awaits : Awaits productions (top stack) q 0 t.kind := opened q (begunMember start) rfl
  obtain ⟨j, seat₁, awaits₁, shift⟩ := shiftSeat stack (n := 0) kind₁ (by decide) awaits rfl
    (fun _ _ => seat.begunStart start (by decide)) (by decide) rfl
    (fun s is => ⟨.rightParen, by decide, (Option.some.inj is).symm⟩) (ts ++ t₂ :: t :: rest)
  obtain ⟨tree, j₂, cost, shows, leads, few, reaches⟩ := reads (⟨j, [.leaf t₁]⟩ :: stack) (t := t₂) seat₁ le_rfl
    (kind₂ ▸ openedBefore awaits₁.has rfl) (kind₂ ▸ closerStops (by decide)) inner (t :: rest)
  obtain ⟨j₃, shifts⟩ := (seat₁.has.moves someProductions seat₁.before leads).leads (s := .token .rightParen) rfl
  have shift₃ : fragment.Reaches 1 (⟨j₂, [tree]⟩ :: ⟨j, [.leaf t₁]⟩ :: stack) (t₂ :: t :: rest)
      (⟨j₃, [.leaf t₂]⟩ :: ⟨j₂, [tree]⟩ :: ⟨j, [.leaf t₁]⟩ :: stack) (t :: rest) :=
    shiftReaches (kind₂ ▸ shifts) (by simp [kind₂])
  have reduces : Reduces productions j₃ q t.kind := seat₁.reducesClosed rfl rfl awaits₁ leads shifts
  obtain ⟨j₄, leads₄⟩ := seat.leads above le_rfl
  obtain ⟨extent, reduce⟩ := nodeReaches .paren [⟨j₃, [.leaf t₂]⟩, ⟨j₂, [tree]⟩, ⟨j, [.leaf t₁]⟩] stack
    rfl rfl reduces leads₄ rest
  have run := ((shift.trans reaches).trans shift₃).trans reduce
  refine ⟨.node .paren extent [.leaf t₁, tree, .leaf t₂], j₄, 1 + cost + 1 + 1, ?_, leads₄, ?_, by simpa using run⟩
  · simpa using Shows.paren extent t₁ t₂ shows
  · simp only [List.length_cons, List.length_append, List.length_nil]
    omega

theorem Reads.bracketed {o : Nat} (reads : Reads 12 o ws e) (inside : o ≤ 12) (inside' : l ≤ 12) :
    Reads 0 l (bracketed o l ws) e := by
  unfold Source.bracketed
  split
  · exact (readsParen (reads.climb (Nat.zero_le o) inside)).climb inside' le_rfl
  · exact reads.climb (by omega) inside

theorem readsBinary (op : BinaryOp) (mark : Mark) {left right : Expr} {ws ws' : List Word}
    (readsLeft : Reads 0 op.leftNeed ws left) (readsRight : Reads 0 op.rightNeed ws' right) :
    Reads 12 op.level (ws ++ ⟨op.kind, op.text⟩ :: ws') (.binary mark op left right) := by
  intro stack p m n t seat above opened stops ts words rest
  obtain ⟨ts₁, tail, rfl, words₁, later⟩ := List.map_eq_append_iff.mp words
  obtain ⟨t', ts₂, rfl, word, words₂⟩ := List.map_eq_cons_iff.mp later
  have kind : t'.kind = op.kind := congrArg Word.kind word
  obtain ⟨looser, inside, looser', inside'⟩ := levelInside op
  have awaits : Awaits productions (top stack) (joined op) 0 t.kind :=
    opened _ (joinedMember op) rfl
  obtain ⟨tree, j, cost, shows, leads, few, reaches⟩ := readsLeft stack seat (above.trans looser)
    (kind ▸ openedBefore awaits.has rfl) (kind ▸ operatorStops op) words₁ (ts₂ ++ t :: rest)
  -- Only the operation goes on with its operator.
  have only (p' : Production) (m' : Nat) (has : Has productions j p' m')
      (at_ : p'.symbols[m']? = some (.token op.kind)) : p' = joined op ∧ m' = 1 := by
    obtain ⟨rfl, ranked, before⟩ := seat.goesOn inside leads (operatorInner op).1 has at_
    exact ⟨joinedAlone has.isProduction ranked before at_, rfl⟩
  obtain ⟨j₂, seat₂, awaits₂, shift⟩ := shiftSeat (⟨j, [tree]⟩ :: stack) kind (operatorInner op).2
    (awaits.moves someProductions rfl leads) rfl only inside' rfl (by simp [joined]) (ts₂ ++ t :: rest)
  obtain ⟨tree', j₃, cost', shows', leads', few', reaches'⟩ := readsRight (⟨j₂, [.leaf t']⟩ :: ⟨j, [tree]⟩ :: stack)
    seat₂ le_rfl (openedLast awaits₂ rfl) (stops.tighter looser') words₂ rest
  have reduces : Reduces productions j₃ (joined op) t.kind :=
    seat₂.reducesOwn rfl awaits₂ (rightStops op stops) leads'
  obtain ⟨j₄, leads₄⟩ := seat.leads above (looser.trans inside)
  obtain ⟨extent, reduce⟩ := nodeReaches .binary [⟨j₃, [tree']⟩, ⟨j₂, [.leaf t']⟩, ⟨j, [tree]⟩] stack
    rfl rfl reduces leads₄ rest
  have run := ((reaches.trans shift).trans reaches').trans reduce
  refine ⟨.node .binary extent [tree, .leaf t', tree'], j₄, cost + 1 + cost' + 1, ?_, leads₄, ?_, by simpa using run⟩
  · rw [List.length_append, List.length_cons, ← Nat.add_assoc]
    exact .binary extent mark kind shows shows'
  · simp only [List.length_append, List.length_cons]
    omega

/-- The first part of a conditional: its test and the question mark. -/
theorem questionReads {test : Expr} {ws : List Word} (readsTest : Reads 0 3 ws test) (stack : List StackEntry)
    {p : Production} {m n : Nat} {t : Token} (seat : Seat (top stack) p m n) (above : n ≤ 2)
    (opened : Opened (top stack) 2 t.kind) {ts : List Token} (words : ts.map Token.word = ws) {t' : Token}
    (kind : t'.kind = .question) (rest : List Token) : ∃ tree j j' cost, Shows ts.length tree test ∧ Seat j' choice 2 1 ∧
      Awaits productions j' choice 2 t.kind ∧ (branch 2).Bounds j' ∧ cost ≤ 16 * ts.length + 1 ∧
      fragment.Reaches cost stack (ts ++ t' :: rest) (⟨j', [.leaf t']⟩ :: ⟨j, [tree]⟩ :: stack) rest := by
  have awaits : Awaits productions (top stack) choice 0 t.kind :=
    opened _ (Array.mem_toList_iff.mp choiceAlone.1) rfl
  obtain ⟨tree, j, cost, shows, leads, few, reaches⟩ := readsTest stack seat (above.trans (by decide))
    (kind ▸ openedBefore awaits.has rfl) (kind ▸ questionStops) words rest
  have only (p' : Production) (m' : Nat) (has : Has productions j p' m')
      (at_ : p'.symbols[m']? = some (.token .question)) : p' = choice ∧ m' = 1 := by
    obtain ⟨rfl, ranked, before⟩ := seat.goesOn (by decide) leads (by decide) has at_
    exact ⟨choiceAlone.2 p' (Array.mem_toList_iff.mpr has.isProduction) ranked before at_, rfl⟩
  have awaits' : Awaits productions j choice 1 t.kind := awaits.moves someProductions rfl leads
  obtain ⟨j', shifts⟩ := awaits'.has.leads (s := .token .question) rfl
  refine ⟨tree, j, j', cost + 1, shows, ?_, awaits'.moves someProductions rfl shifts, ?_, by omega,
    reaches.trans (shiftReaches (kind ▸ shifts) (by simp [kind]))⟩
  · exact seatBehind shifts awaits'.has rfl only (by decide) rfl fun s is =>
      ⟨.colon, by decide, (Option.some.inj is).symm⟩
  · refine boundsAfter shifts (fun p' m' has at_ => ?_) branchClosed.1
    obtain ⟨rfl, rfl⟩ := only p' m' has at_
    exact List.mem_singleton_self _

/-- The second part of a conditional: its first branch and the colon. -/
theorem colonReads {yes : Expr} {ws : List Word} (readsYes : Reads 0 1 ws yes) (stack : List StackEntry) {k : TokenKind}
    (seat : Seat (top stack) choice 2 1) (awaits : Awaits productions (top stack) choice 2 k) {ts : List Token}
    (words : ts.map Token.word = ws) {t' : Token} (kind : t'.kind = .colon) (rest : List Token) : ∃ tree j j' cost,
      Shows ts.length tree yes ∧ Seat j' choice 4 1 ∧ Awaits productions j' choice 4 k ∧ (branch 4).Bounds j' ∧
      cost ≤ 16 * ts.length + 1 ∧
      fragment.Reaches cost stack (ts ++ t' :: rest) (⟨j', [.leaf t']⟩ :: ⟨j, [tree]⟩ :: stack) rest := by
  obtain ⟨tree, j, cost, shows, leads, few, reaches⟩ := readsYes stack seat le_rfl
    (kind ▸ openedBefore awaits.has rfl) (kind ▸ (closerStops (by decide)).tighter (by decide)) words rest
  have only (p' : Production) (m' : Nat) (has : Has productions j p' m')
      (at_ : p'.symbols[m']? = some (.token .colon)) : p' = choice ∧ m' = 3 := seat.ownAlone rfl leads has at_
  have awaits' : Awaits productions j choice 3 k := awaits.moves someProductions rfl leads
  obtain ⟨j', shifts⟩ := awaits'.has.leads (s := .token .colon) rfl
  refine ⟨tree, j, j', cost + 1, shows, ?_, awaits'.moves someProductions rfl shifts, ?_, by omega,
    reaches.trans (shiftReaches (kind ▸ shifts) (by simp [kind]))⟩
  · exact seatBehind shifts awaits'.has rfl only (by decide) rfl (by simp [choice])
  · refine boundsAfter shifts (fun p' m' has at_ => ?_) branchClosed.2
    obtain ⟨rfl, rfl⟩ := only p' m' has at_
    exact List.mem_singleton_self _

/-- The whole conditional, once its second branch has been read. -/
theorem choiceReads (stack : List StackEntry) {p : Production} {m n : Nat} {t : Token} (seat : Seat (top stack) p m n)
    (above : n ≤ 2) {j₂ j₃ j₄ j₅ j : Nat} {t₁ t₂ : Token} {tree tree' tree'' : Tree} (seat₄ : Seat j₄ choice 4 1)
    (awaits₄ : Awaits productions j₄ choice 4 t.kind) (leads : next? productions j₄ (.rule (level 1)) = some j₅)
    (rest : List Token) : ∃ extent j', next? productions (top stack) (.rule (level 2)) = some j' ∧
      fragment.Reaches 1
        (⟨j₅, [tree'']⟩ :: ⟨j₄, [.leaf t₂]⟩ :: ⟨j₃, [tree']⟩ :: ⟨j₂, [.leaf t₁]⟩ :: ⟨j, [tree]⟩ :: stack) (t :: rest)
        (⟨j', [.node .condExpr extent [tree, .leaf t₁, tree', .leaf t₂, tree'']]⟩ :: stack) (t :: rest) := by
  have reduces : Reduces productions j₅ choice t.kind := seat₄.reducesOwn rfl awaits₄ List.not_mem_nil leads
  obtain ⟨j', leads'⟩ := seat.leads above (by decide)
  obtain ⟨extent, reduce⟩ := nodeReaches .condExpr
    [⟨j₅, [tree'']⟩, ⟨j₄, [.leaf t₂]⟩, ⟨j₃, [tree']⟩, ⟨j₂, [.leaf t₁]⟩, ⟨j, [tree]⟩] stack rfl rfl reduces leads' rest
  exact ⟨extent, j', leads', by simpa using reduce⟩

theorem readsConditional (mark : Mark) {test yes no : Expr} {ws ws' ws'' : List Word} (readsTest : Reads 0 3 ws test)
    (readsYes : Reads 0 1 ws' yes) (readsNo : Reads 0 1 ws'' no) :
    Reads 12 2 (ws ++ ⟨.question, "?"⟩ :: (ws' ++ ⟨.colon, ":"⟩ :: ws'')) (.conditional mark test yes no) := by
  intro stack p m n t seat above opened stops ts words rest
  obtain ⟨ts₁, tail, rfl, words₁, later⟩ := List.map_eq_append_iff.mp words
  obtain ⟨t₁, tail, rfl, word₁, later⟩ := List.map_eq_cons_iff.mp later
  obtain ⟨ts₂, tail, rfl, words₂, last⟩ := List.map_eq_append_iff.mp later
  obtain ⟨t₂, ts₃, rfl, word₂, words₃⟩ := List.map_eq_cons_iff.mp last
  obtain ⟨tree, j, j₂, cost, shows, seat₂, awaits₂, -, few, reaches⟩ := questionReads readsTest stack seat above opened
    words₁ (congrArg Word.kind word₁) (ts₂ ++ t₂ :: (ts₃ ++ t :: rest))
  obtain ⟨tree', j₃, j₄, cost', shows', seat₄, awaits₄, -, few', reaches'⟩ :=
    colonReads readsYes (⟨j₂, [.leaf t₁]⟩ :: ⟨j, [tree]⟩ :: stack) seat₂ awaits₂ words₂ (congrArg Word.kind word₂)
      (ts₃ ++ t :: rest)
  obtain ⟨tree'', j₅, cost'', shows'', leads, few'', reaches''⟩ :=
    readsNo (⟨j₄, [.leaf t₂]⟩ :: ⟨j₃, [tree']⟩ :: ⟨j₂, [.leaf t₁]⟩ :: ⟨j, [tree]⟩ :: stack) seat₄ le_rfl
      (openedLast awaits₄ rfl) stops.branch words₃ rest
  obtain ⟨extent, j', leads', reduce⟩ := choiceReads stack seat above seat₄ awaits₄ leads rest
  have run := ((reaches.trans reaches').trans reaches'').trans reduce
  refine ⟨.node .condExpr extent [tree, .leaf t₁, tree', .leaf t₂, tree''], j', cost + cost' + cost'' + 1, ?_, leads', ?_,
    by simpa using run⟩
  · have shown := Shows.conditional extent t₁ t₂ mark shows shows' shows''
    rwa [show ts₁.length + ts₂.length + ts₃.length + 2 = (ts₁ ++ t₁ :: (ts₂ ++ t₂ :: ts₃)).length by
      simp only [List.length_append, List.length_cons]; omega] at shown
  · simp only [List.length_append, List.length_cons]
    omega

theorem formulaReads (formula : Formula e) : ∀ l ≤ 12, Reads 0 l (e.words l) e := by
  induction formula with
  | name mark spelled =>
    intro l inside
    exact (readsLeaf (by decide) (by decide) rfl fun extent t text => text ▸ .name extent t mark).climb inside le_rfl
  | number mark spelled denotes =>
    intro l inside
    refine (readsLeaf (by decide) (by decide) rfl fun extent t text => ?_).climb inside le_rfl
    subst text
    exact .number extent t mark denotes
  | boolean mark value =>
    intro l inside
    cases value
    · exact (readsLeaf (by decide) (by decide) rfl fun extent t _ => .boolean extent t mark false).climb inside le_rfl
    · exact (readsLeaf (by decide) (by decide) rfl fun extent t _ => .boolean extent t mark true).climb inside le_rfl
  | unary mark op inner ih =>
    intro l inside
    exact (readsUnary op mark (ih 10 (by decide))).bracketed (by decide) inside
  | binary mark op first second ih ih' =>
    intro l inside
    obtain ⟨looser, insideLeft, _, insideRight⟩ := levelInside op
    exact (readsBinary op mark (ih _ insideLeft) (ih' _ insideRight)).bracketed (looser.trans insideLeft) inside
  | conditional mark decides first second ih ih' ih'' =>
    intro l inside
    exact (readsConditional mark (ih 3 (by decide)) (ih' 1 (by decide)) (ih'' 1 (by decide))).bracketed (by decide) inside

end Reading

end Grammar

end Fragment.Source
