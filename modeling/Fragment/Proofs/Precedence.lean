import Fragment.Proofs.ActionTable
import Fragment.Source.Tree

/-! Steps of recognition, and the states that they lead to.
Where the items before a symbol are known, so are those behind it, and with them what the state behind it
does: it reduces the production that has come to its end there if nothing else can go on with the token. -/
namespace Fragment.Source.Automaton

variable {productions : Array Production}

section Steps

variable {a : Automaton} {n m : Nat} {stack stack' stack'' : List StackEntry} {ts ts' ts'' : List Token}

def Reaches (a : Automaton) (n : Nat) (stack : List StackEntry) (ts : List Token) (stack' : List StackEntry)
    (ts' : List Token) : Prop :=
  ∃ m ≤ n, ∀ fuel, a.recognize (fuel + m) stack ts = a.recognize fuel stack' ts'

theorem Reaches.refl (a : Automaton) (stack : List StackEntry) (ts : List Token) : a.Reaches 0 stack ts stack ts :=
  ⟨0, le_rfl, fun _ => rfl⟩

theorem Reaches.trans (first : a.Reaches n stack ts stack' ts') (second : a.Reaches m stack' ts' stack'' ts'') :
    a.Reaches (n + m) stack ts stack'' ts'' := by
  obtain ⟨n', fewer, runs⟩ := first
  obtain ⟨m', fewer', runs'⟩ := second
  refine ⟨m' + n', by omega, fun fuel => ?_⟩
  rw [← Nat.add_assoc, runs, runs']

theorem Reaches.result (reaches : a.Reaches n stack ts stack' ts') {result : Except UnexpectedToken (List Tree)}
    (ends : ∀ fuel, a.recognize (fuel + 1) stack' ts' = result) {fuel : Nat} (enough : n < fuel) :
    a.recognize fuel stack ts = result := by
  obtain ⟨m, fewer, runs⟩ := reaches
  obtain ⟨spare, rfl⟩ := Nat.exists_eq_add_of_lt (fewer.trans_lt enough)
  rw [show m + spare + 1 = spare + 1 + m by omega, runs, ends]

def Reduces (productions : Array Production) (i : Nat) (p : Production) (k : TokenKind) : Prop :=
  ∃ q : Nat, productions[q]? = some p ∧ (ofProductions productions).action? i k = some (.reduce q)

variable {j : Nat} {t : Token}

theorem shiftReaches {rest : List Token} (leads : next? productions (top stack) (.token t.kind) = some j) (inner : t.kind ≠ .finish) :
    (ofProductions productions).Reaches 1 stack (t :: rest) (⟨j, [.leaf t]⟩ :: stack) rest := by
  refine ⟨1, le_rfl, fun fuel => ?_⟩
  rw [recognize, shiftAction leads]
  simp [inner]

theorem finishRecognized {rest : List Token} (leads : next? productions (top stack) (.token t.kind) = some j)
    (ends : t.kind = .finish) (fuel : Nat) : (ofProductions productions).recognize (fuel + 1) stack (t :: rest) =
      .ok ((stack.head?.map (·.trees)).getD []) := by
  rw [recognize, shiftAction leads]
  simp [ends]

theorem refusedRecognized {rest : List Token} (refused : a.action? (top stack) t.kind = none) (fuel : Nat) :
    a.recognize (fuel + 1) stack (t :: rest) = .error ⟨t, a.expected (top stack)⟩ := by
  rw [recognize, refused]

theorem memExpected {i : Nat} {k : TokenKind} : k ∈ a.expected i ↔ (a.action? i k).isSome := by
  rw [expected, action?, ← Option.ne_none_iff_isSome, Ne, List.lookup_eq_none_iff]
  simp

theorem reduceReaches {p : Production} (entries below : List StackEntry) (rest : List Token) (count : entries.length = p.symbols.length)
    (acts : Reduces productions (top (entries ++ below)) p t.kind)
    (leads : next? productions (top below) (.rule p.rule) = some j) :
    (ofProductions productions).Reaches 1 (entries ++ below) (t :: rest)
      (⟨j, p.make.apply (entries.reverse.flatMap (·.trees))⟩ :: below) (t :: rest) := by
  obtain ⟨q, there, action⟩ := acts
  have goto : (ofProductions productions).goto? (top below) p.rule = some j := (gotoNext p.rule).trans leads
  have found : (ofProductions productions).productions[q]? = some p := there
  have reduced : (ofProductions productions).reduce? (entries ++ below) q =
      some (⟨j, p.make.apply (entries.reverse.flatMap (·.trees))⟩ :: below) := by
    simp [reduce?, found, ← count, goto]
  refine ⟨1, le_rfl, fun fuel => ?_⟩
  rw [recognize, action]
  simp [reduced]

end Steps

section Contents

variable {i j m : Nat} {p : Production} {s : Symbol} {k : TokenKind}

theorem Has.isProduction (has : Has productions i p m) : p ∈ productions :=
  let ⟨_, there, _⟩ := has
  Array.mem_of_getElem? there

-- Nothing is opened in a state whose items all stand before tokens or at their ends.
theorem hasMoved (first : 0 < productions.size) (leads : next? productions i s = some j)
    (flat : ∀ p m, Has productions i p m → p.symbols[m]? = some s → ∀ r, p.symbols[m + 1]? ≠ some (.rule r))
    (has : Has productions j p m) : ∃ m', m = m' + 1 ∧ Has productions i p m' ∧ p.symbols[m']? = some s := by
  let C (p : Production) (m : Nat) : Prop :=
    (∃ m', m = m' + 1 ∧ Has productions i p m' ∧ p.symbols[m']? = some s) ∧ ∀ r, p.symbols[m]? ≠ some (.rule r)
  have all : C p m := by
    refine hasInduction first leads (fun p m has at_ => ?_) (fun p m p' holds _ at_ => ?_) has
    · exact ⟨⟨m, rfl, has, at_⟩, flat p m has at_⟩
    · exact absurd at_ (holds.2 _)
  exact all.1

-- What may stand before a symbol next to an item that ends with it: a token other than the next one has to
-- follow, or what it ends is never followed by the next token.
def Idle (productions : Array Production) (k : TokenKind) (p : Production) (m : Nat) : Prop :=
  (∃ k', k' ≠ k ∧ p.symbols[m]? = some (.token k')) ∨ p.symbols[m]? = none ∧ ∀ i m, ¬ Awaits productions i p m k

theorem reducesBehind (first : 0 < productions.size) (leads : next? productions i s = some j)
    (awaits : Awaits productions i p m k) (at_ : p.symbols[m]? = some s) (ends : p.symbols.length = m + 1)
    (others : ∀ p' m', Has productions i p' m' → p'.symbols[m']? = some s →
      p' = p ∧ m' = m ∨ Idle productions k p' (m' + 1)) : Reduces productions j p k := by
  have ended : p.symbols[m + 1]? = none := List.getElem?_eq_none (by omega)
  have flat (p' : Production) (m' : Nat) (has : Has productions i p' m') (before : p'.symbols[m']? = some s) (r : Rule) :
      p'.symbols[m' + 1]? ≠ some (.rule r) := by
    obtain ⟨rfl, rfl⟩ | ⟨k', _, next⟩ | ⟨next, _⟩ := others p' m' has before
    · simp [ended]
    · simp [next]
    · simp [next]
  have arrives : Awaits productions j p p.symbols.length k := ends ▸ awaits.moves first at_ leads
  refine arrives.reduces first (nextNone fun p' m' has next => ?_) fun p' m' awaits' next => ?_
  · obtain ⟨m', rfl, has', before⟩ := hasMoved first leads flat has
    obtain ⟨rfl, rfl⟩ | ⟨k', other, next'⟩ | ⟨next', _⟩ := others p' m' has' before
    · simp [ended] at next
    · cases next'.symm.trans next
      exact other rfl
    · simp [next'] at next
  · obtain ⟨m', rfl, has', before⟩ := hasMoved first leads flat awaits'.has
    obtain ⟨rfl, rfl⟩ | ⟨k', _, next'⟩ | ⟨_, never⟩ := others p' m' has' before
    · rfl
    · simp [next'] at next
    · exact absurd awaits' (never _ _)

end Contents

end Fragment.Source.Automaton

/-! How tightly the rules of expressions bind, and the states in which an expression may begin.
The rules form a ladder: each may be just the next tighter one. A state with a mark before one of them opens
all that are tighter, and an expression that has been read in it climbs up the ladder again, as long as the
next token cannot go on with it. -/
namespace Fragment.Source

def Symbol.rule? : Symbol → Option Rule
  | .rule r => some r
  | .token _ => none

namespace Grammar

def level : Nat → Rule
  | 0 => .expr
  | 1 => .assignExpr
  | 2 => .conditional
  | 3 => .logicalOr
  | 4 => .logicalAnd
  | 5 => .equality
  | 6 => .relational
  | 7 => .additive
  | 8 => .multiplicative
  | 9 => .exponent
  | 10 => .unary
  | 11 => .postfixExpr
  | _ => .primary

-- Arrow functions begin where the tightest rules do and are never read further here.
def rank : Rule → Option Nat
  | .expr => some 0
  | .assignExpr => some 1
  | .conditional => some 2
  | .logicalOr => some 3
  | .logicalAnd => some 4
  | .equality => some 5
  | .relational => some 6
  | .additive => some 7
  | .multiplicative => some 8
  | .exponent => some 9
  | .unary => some 10
  | .postfixExpr => some 11
  | .primary | .arrowFunction | .arrowParams => some 12
  | _ => none

/-- The tokens that go on with an expression of a level. -/
def continuations : Nat → List TokenKind
  | 3 => [.or, .question]
  | 4 => [.and]
  | 5 => [.strictEqual, .strictNotEqual, .looseEqual, .looseNotEqual]
  | 6 => [.less, .greater, .lessEqual, .greaterEqual, .asWord]
  | 7 => [.plus, .minus]
  | 8 => [.star, .slash, .percent]
  | 11 => [.assign, .plusAssign, .minusAssign, .starAssign, .slashAssign, .percentAssign, .starStar, .dot,
      .leftBracket, .leftParen]
  | _ => []

def Tight (n : Nat) (r : Rule) : Prop := ∃ a ∈ rank r, n ≤ a

def unit (n : Nat) : Production := ⟨level n, [.rule (level (n + 1))], .pass⟩

/-- The tokens that an expression without arrows begins with. -/
def starts : List TokenKind :=
  [.name, .number, .trueWord, .falseWord, .leftParen, .minus, .plus, .bang, .typeofWord]

def begun : TokenKind → Production
  | .name => ⟨.primary, [.token .name], .node .nameRef⟩
  | .number => ⟨.primary, [.token .number], .node .numberLit⟩
  | .trueWord => ⟨.primary, [.token .trueWord], .node .trueLit⟩
  | .falseWord => ⟨.primary, [.token .falseWord], .node .falseLit⟩
  | .leftParen => ⟨.primary, [.token .leftParen, .rule .expr, .token .rightParen], .node .paren⟩
  | k => ⟨.unary, [.token k, .rule .unary], .node .unaryOp⟩

def arrowName : Production := ⟨.arrowParams, [.token .name], .node .arrowParams⟩

def spoken : Symbol → Bool
  | .rule r => (rank r).isSome
  | .token k => k ∈ starts

/-- The tokens that stand behind a whole expression. -/
def closers : List TokenKind := [.rightParen, .colon, .terminator]

-- What is decided here walks through the whole table of productions, which is deeper than the usual limit.
set_option maxRecDepth 2048 in
theorem someProductions : 0 < productions.size := by decide

theorem levelRank : ∀ n ≤ 12, rank (level n) = some n := by decide

theorem unitsPresent : ∀ n < 12, unit n ∈ productions.toList := by decide

set_option maxRecDepth 2048 in
theorem opensTighter : ∀ p ∈ productions.toList, ∀ a ∈ rank p.rule, ∀ r ∈ p.symbols[0]?.bind Symbol.rule?,
    ∃ b ∈ rank r, a ≤ b := by decide

set_option maxRecDepth 2048 in
theorem behindLevels : ∀ p ∈ productions.toList, (rank p.rule).isSome → ∀ n < 13,
    p.symbols[0]? = some (Symbol.rule (level n)) →
      0 < n ∧ p = unit (n - 1) ∨ ∃ k ∈ continuations n, p.symbols[1]? = some (Symbol.token k) := by decide

set_option maxRecDepth 2048 in
theorem begunAlone : ∀ k ∈ starts, begun k ∈ productions.toList ∧ ∀ p ∈ productions.toList, (rank p.rule).isSome →
    p.symbols[0]? = some (Symbol.token k) → p = begun k ∨ p = arrowName := by decide

theorem closersEnd : ∀ k ∈ closers, ∀ n < 13, k ∉ continuations n := by decide

theorem Tight.opens {n : Nat} {p : Production} {r : Rule} (tight : Tight n p.rule) (is : p ∈ productions)
    (at_ : p.symbols[0]? = some (Symbol.rule r)) : Tight n r := by
  obtain ⟨a, ranked, above⟩ := tight
  obtain ⟨b, ranked', above'⟩ := opensTighter p (Array.mem_toList_iff.mpr is) a ranked r (by simp [at_, Symbol.rule?])
  exact ⟨b, ranked', above.trans above'⟩

theorem Tight.ofLevel {n l : Nat} (inside : l ≤ 12) : Tight n (level l) ↔ n ≤ l := by
  simp [Tight, levelRank l inside]

theorem levelInj {l l' : Nat} (inside : l ≤ 12) (inside' : l' ≤ 12) (same : level l = level l') : l = l' := by
  have ranks := congrArg rank same
  rw [levelRank l inside, levelRank l' inside'] at ranks
  exact Option.some.inj ranks

theorem Tight.behind {n l : Nat} {p : Production} (tight : Tight n p.rule) (is : p ∈ productions) (inside : l ≤ 12)
    (at_ : p.symbols[0]? = some (Symbol.rule (level l))) :
    n < l ∧ p = unit (l - 1) ∨ ∃ k ∈ continuations l, p.symbols[1]? = some (Symbol.token k) := by
  have ranked : (rank p.rule).isSome := by
    obtain ⟨a, ranked, _⟩ := tight
    exact Option.isSome_of_mem ranked
  rcases behindLevels p (Array.mem_toList_iff.mpr is) ranked l (by omega) at_ with ⟨positive, rfl⟩ | goesOn
  · have above : n ≤ l - 1 := (Tight.ofLevel (by omega)).mp tight
    exact .inl ⟨by omega, rfl⟩
  · exact .inr goesOn

theorem Tight.begins {n : Nat} {p : Production} {k : TokenKind} (tight : Tight n p.rule) (is : p ∈ productions)
    (start : k ∈ starts) (at_ : p.symbols[0]? = some (Symbol.token k)) : p = begun k ∨ p = arrowName := by
  obtain ⟨a, ranked, _⟩ := tight
  exact (begunAlone k start).2 p (Array.mem_toList_iff.mpr is) (Option.isSome_of_mem ranked) at_

open Automaton hiding productions

variable {i j m n l : Nat} {p p' : Production} {k : TokenKind}

/-- A state in which an expression of a level may begin: a mark stands before the level, and besides this
item there are only tighter rules that begin, and items that begin with something else. -/
structure Seat (i : Nat) (p : Production) (m n : Nat) : Prop where
  has : Has productions i p m
  inside : n ≤ 12
  before : p.symbols[m]? = some (.rule (level n))
  behind : ∀ s, p.symbols[m + 1]? = some s → ∃ k ∈ closers, s = .token k
  others : ∀ p' m', Has productions i p' m' →
    p' = p ∧ m' = m ∨ m' = 0 ∧ Tight n p'.rule ∨ ∀ s, p'.symbols[m']? = some s → spoken s = false

/-- The productions of a level begin in a state, with a token that may follow. -/
def Opened (i l : Nat) (k : TokenKind) : Prop := ∀ p ∈ productions, p.rule = level l → Awaits productions i p 0 k

/-- A token that does not go on with any tighter expression. -/
def Stops (l : Nat) (k : TokenKind) : Prop := k ≠ .arrow ∧ ∀ l' < 13, l < l' → k ∉ continuations l'

theorem unitMember (inside : l < 12) : unit l ∈ productions := Array.mem_toList_iff.mp (unitsPresent l inside)

theorem begunMember (start : k ∈ starts) : begun k ∈ productions := Array.mem_toList_iff.mp (begunAlone k start).1

theorem Opened.deeper (opened : Opened i l k) {o : Nat} (above : l ≤ o) (inside : o ≤ 12) : Opened i o k := by
  induction o, above using Nat.le_induction with
  | base => exact opened
  | succ o above ih =>
    intro p is rule
    exact (ih (by omega) (unit o) (unitMember (by omega)) rfl).opens is (by rw [rule]; rfl)

theorem openedBefore (has : Has productions i p m) {rest : List Symbol}
    (after : p.symbols.drop m = .rule (level l) :: .token k :: rest) : Opened i l k := by
  intro p' is rule
  rw [← rule] at after
  exact has.opens is after

theorem openedLast (awaits : Awaits productions i p m k) (after : p.symbols.drop m = [.rule (level l)]) :
    Opened i l k := by
  intro p' is rule
  rw [← rule] at after
  exact awaits.opens is after

-- What stands behind the parameters of an arrow function is the arrow.
set_option maxRecDepth 2048 in
theorem arrowsFollow : (∀ p ∈ productions.toList, p.symbols.getLast? ≠ some (Symbol.rule .arrowParams)) ∧
    ∀ p ∈ productions.toList, ∀ m < p.symbols.length, p.symbols[m]? = some (.rule .arrowParams) →
      p.symbols[m + 1]? = some (.token .arrow) := by decide

theorem arrowNameAwaits (noArrow : k ≠ .arrow) : ¬ Awaits productions i arrowName m k := by
  rintro ⟨q, there, member, looks⟩
  have follows : Follows (tables productions) fun r k => r = .arrowParams → k = .arrow := by
    constructor
    · rintro i p there r last k - rfl
      exact absurd last (arrowsFollow.1 p (Array.mem_toList_iff.mpr (Array.mem_of_getElem? there)))
    · rintro i p there m r s at_ next k starts rfl
      have inside : m < p.symbols.length := (List.getElem?_eq_some_iff.mp at_).1
      have arrow := arrowsFollow.2 p (Array.mem_toList_iff.mpr (Array.mem_of_getElem? there)) m inside at_
      cases arrow.symm.trans next
      exact (hasBit.mp starts).symm
  exact noArrow (looksFollow someProductions follows member there looks rfl)

namespace Seat

theorem hasUnit (seat : Seat i p m n) (above : n ≤ l) (inside : l < 12) : Has productions i (unit l) 0 := by
  induction l, above using Nat.le_induction with
  | base => exact seat.has.begins (unitMember inside) seat.before
  | succ l above ih => exact (ih (by omega)).begins (unitMember inside) rfl

theorem leads (seat : Seat i p m n) (above : n ≤ l) (inside : l ≤ 12) :
    ∃ j, next? productions i (.rule (level l)) = some j := by
  rcases above.eq_or_lt with rfl | more
  · exact seat.has.leads seat.before
  · obtain ⟨l, rfl⟩ := Nat.exists_eq_add_of_lt more
    exact (seat.hasUnit (l := n + l) (by omega) (by omega)).leads rfl

theorem beforeLevel (seat : Seat i p m n) (inside : l ≤ 12) {m' : Nat} (has : Has productions i p' m')
    (at_ : p'.symbols[m']? = some (.rule (level l))) : p' = p ∧ m' = m ∧ l = n ∨ m' = 0 ∧ Tight n p'.rule := by
  rcases seat.others p' m' has with ⟨rfl, rfl⟩ | tight | silent
  · have same := Symbol.rule.inj (Option.some.inj (at_.symm.trans seat.before))
    exact .inl ⟨rfl, rfl, levelInj inside seat.inside same⟩
  · exact .inr tight
  · have contrary := silent _ at_
    simp [spoken, levelRank l inside] at contrary

theorem behindLevel (seat : Seat i p m n) (inside : l ≤ 12) (leads : next? productions i (.rule (level l)) = some j)
    {m' : Nat} (has : Has productions j p' m') : p' = p ∧ m' = m + 1 ∧ l = n ∨
      m' = 1 ∧ Tight n p'.rule ∧ p'.symbols[0]? = some (Symbol.rule (level l)) := by
  have flat (p' : Production) (m' : Nat) (has : Has productions i p' m')
      (at_ : p'.symbols[m']? = some (.rule (level l))) (r : Rule) : p'.symbols[m' + 1]? ≠ some (.rule r) := by
    intro next
    rcases seat.beforeLevel inside has at_ with ⟨rfl, rfl, rfl⟩ | ⟨rfl, tight⟩
    · obtain ⟨k, _, token⟩ := seat.behind _ next
      cases token
    · rcases tight.behind has.isProduction inside at_ with ⟨_, rfl⟩ | ⟨k, _, token⟩
      · simp [unit] at next
      · cases token.symm.trans next
  obtain ⟨m', rfl, has', at_⟩ := hasMoved someProductions leads flat has
  rcases seat.beforeLevel inside has' at_ with ⟨rfl, rfl, rfl⟩ | ⟨rfl, tight⟩
  · exact .inl ⟨rfl, rfl, rfl⟩
  · exact .inr ⟨rfl, tight, at_⟩

-- One step up the ladder.
theorem reducesUnit (seat : Seat i p m n) (above : n ≤ l) (inside : l < 12) (opened : Opened i l k)
    (free : k ∉ continuations (l + 1)) (leads : next? productions i (.rule (level (l + 1))) = some j) :
    Reduces productions j (unit l) k := by
  refine reducesBehind someProductions leads (opened (unit l) (unitMember inside) rfl) rfl rfl fun p' m' has at_ => ?_
  rcases seat.beforeLevel inside has at_ with ⟨rfl, rfl, same⟩ | ⟨rfl, tight⟩
  · omega
  · rcases tight.behind has.isProduction inside at_ with ⟨_, rfl⟩ | ⟨k', goesOn, next⟩
    · exact .inl ⟨rfl, rfl⟩
    · exact .inr (.inl ⟨k', fun same => free (same ▸ goesOn), next⟩)

theorem climb (seat : Seat i p m n) (above : n ≤ l) {o : Nat} (tighter : l ≤ o) (inside : o ≤ 12) {t : Token}
    (opened : Opened i l t.kind) (stops : Stops l t.kind) {stack : List StackEntry} (on : top stack = i)
    (trees : List Tree) (rest : List Token) : ∀ {j}, next? productions i (.rule (level o)) = some j →
    ∃ j', next? productions i (.rule (level l)) = some j' ∧
      fragment.Reaches (o - l) (⟨j, trees⟩ :: stack) (t :: rest) (⟨j', trees⟩ :: stack) (t :: rest) := by
  induction o, tighter using Nat.le_induction with
  | base =>
    intro j leads
    rw [Nat.sub_self]
    exact ⟨j, leads, .refl _ _ _⟩
  | succ o tighter ih =>
    intro j leads
    obtain ⟨j', leads'⟩ := seat.leads (l := o) (by omega) (by omega)
    have reduces : Reduces productions j (unit o) t.kind := seat.reducesUnit (by omega) (by omega)
      (opened.deeper tighter (by omega)) (stops.2 (o + 1) (by omega) (by omega)) leads
    have step : fragment.Reaches 1 (⟨j, trees⟩ :: stack) (t :: rest) (⟨j', trees⟩ :: stack) (t :: rest) := by
      have reduced := reduceReaches [⟨j, trees⟩] stack rest rfl reduces (on ▸ leads')
      simpa [fragment, unit, Make.apply] using reduced
    obtain ⟨j'', leads'', up⟩ := ih (by omega) leads'
    rw [show o + 1 - l = 1 + (o - l) by omega]
    exact ⟨j'', leads'', step.trans up⟩

-- The item of the seat has come to its end.
theorem reducesOwn (seat : Seat i p m n) (ends : p.symbols.length = m + 1) (awaits : Awaits productions i p m k)
    (free : k ∉ continuations n) (leads : next? productions i (.rule (level n)) = some j) :
    Reduces productions j p k := by
  refine reducesBehind someProductions leads awaits seat.before ends fun p' m' has at_ => ?_
  rcases seat.beforeLevel seat.inside has at_ with ⟨rfl, rfl, _⟩ | ⟨rfl, tight⟩
  · exact .inl ⟨rfl, rfl⟩
  · rcases tight.behind has.isProduction seat.inside at_ with ⟨contrary, _⟩ | ⟨k', goesOn, next⟩
    · omega
    · exact .inr (.inl ⟨k', fun same => free (same ▸ goesOn), next⟩)

-- The item of the seat alone goes on with what stands behind its expression.
theorem ownAlone (seat : Seat i p m n) (next : p.symbols[m + 1]? = some (.token k))
    (leads : next? productions i (.rule (level n)) = some j) {m' : Nat} (has : Has productions j p' m')
    (at_ : p'.symbols[m']? = some (.token k)) : p' = p ∧ m' = m + 1 := by
  rcases seat.behindLevel seat.inside leads has with ⟨rfl, rfl, _⟩ | ⟨rfl, tight, before⟩
  · exact ⟨rfl, rfl⟩
  · rcases tight.behind has.isProduction seat.inside before with ⟨contrary, _⟩ | ⟨k', goesOn, token⟩
    · omega
    · obtain ⟨_, closer, same⟩ := seat.behind _ next
      cases same
      cases token.symm.trans at_
      exact absurd goesOn (closersEnd k closer n (by have := seat.inside; omega))

theorem reducesClosed (seat : Seat i p m n) {c : TokenKind} (next : p.symbols[m + 1]? = some (.token c))
    (ends : p.symbols.length = m + 2) (awaits : Awaits productions i p m k)
    (leads : next? productions i (.rule (level n)) = some j) {j' : Nat}
    (leads' : next? productions j (.token c) = some j') : Reduces productions j' p k := by
  have awaits' : Awaits productions j p (m + 1) k := awaits.moves someProductions seat.before leads
  exact reducesBehind someProductions leads' awaits' next ends fun p' m' has at_ => .inl (seat.ownAlone next leads has at_)

-- Which items go on behind an expression of a level with a token that does not close it.
theorem goesOn (seat : Seat i p m n) (inside : l ≤ 12) (leads : next? productions i (.rule (level l)) = some j)
    (inner : k ∉ closers) {m' : Nat} (has : Has productions j p' m') (at_ : p'.symbols[m']? = some (.token k)) :
    m' = 1 ∧ (rank p'.rule).isSome ∧ p'.symbols[0]? = some (Symbol.rule (level l)) := by
  rcases seat.behindLevel inside leads has with ⟨rfl, rfl, _⟩ | ⟨rfl, ⟨a, ranked, _⟩, before⟩
  · obtain ⟨_, closer, same⟩ := seat.behind _ at_
    cases same
    exact absurd closer inner
  · exact ⟨rfl, Option.isSome_of_mem ranked, before⟩

theorem startAlone (seat : Seat i p m n) (start : k ∈ starts) {m' : Nat} (has : Has productions i p' m')
    (at_ : p'.symbols[m']? = some (.token k)) : m' = 0 ∧ (p' = begun k ∨ p' = arrowName) := by
  rcases seat.others p' m' has with ⟨rfl, rfl⟩ | ⟨rfl, tight⟩ | silent
  · cases seat.before.symm.trans at_
  · exact ⟨rfl, tight.begins has.isProduction start at_⟩
  · have contrary := silent _ at_
    simp [spoken, start] at contrary

theorem begunStart (seat : Seat i p m n) (start : k ∈ starts) (notName : k ≠ .name) {m' : Nat}
    (has : Has productions i p' m') (at_ : p'.symbols[m']? = some (.token k)) : p' = begun k ∧ m' = 0 := by
  obtain ⟨rfl, rfl | rfl⟩ := seat.startAlone start has at_
  · exact ⟨rfl, rfl⟩
  · cases at_
    exact absurd rfl notName

theorem reducesLeaf (seat : Seat i p m n) (start : k ∈ starts) (alone : (begun k).symbols = [.token k])
    {k' : TokenKind} (awaits : Awaits productions i (begun k) 0 k') (noArrow : k' ≠ .arrow)
    (leads : next? productions i (.token k) = some j) : Reduces productions j (begun k) k' := by
  refine reducesBehind someProductions leads awaits (by rw [alone]; rfl) (by rw [alone]; rfl) fun p' m' has at_ => ?_
  obtain ⟨rfl, rfl | rfl⟩ := seat.startAlone start has at_
  · exact .inl ⟨rfl, rfl⟩
  · exact .inr (.inr ⟨rfl, fun i m => arrowNameAwaits noArrow⟩)

end Seat

-- A token leads to a seat if a single item goes on with it and stands before an expression then.
theorem seatBehind (leads : next? productions i (.token k) = some j) (has : Has productions i p m)
    (at_ : p.symbols[m]? = some (.token k))
    (only : ∀ p' m', Has productions i p' m' → p'.symbols[m']? = some (.token k) → p' = p ∧ m' = m) (inside : n ≤ 12)
    (next : p.symbols[m + 1]? = some (.rule (level n)))
    (behind : ∀ s, p.symbols[m + 2]? = some s → ∃ k ∈ closers, s = .token k) : Seat j p (m + 1) n where
  has := has.moves someProductions at_ leads
  inside := inside
  before := next
  behind := behind
  others p' m' has' := by
    let C (p' : Production) (m' : Nat) : Prop := p' = p ∧ m' = m + 1 ∨ m' = 0 ∧ Tight n p'.rule ∧ p' ∈ productions
    have all : C p' m' := by
      refine hasInduction someProductions leads (fun p' m' has' at' => ?_) (fun p₁ m₁ p₂ holds is at' => ?_) has'
      · obtain ⟨rfl, rfl⟩ := only p' m' has' at'
        exact .inl ⟨rfl, rfl⟩
      · rcases holds with ⟨rfl, rfl⟩ | ⟨rfl, tight, is₁⟩
        · have same : level n = p₂.rule := Symbol.rule.inj (Option.some.inj (next.symm.trans at'))
          exact .inr ⟨rfl, same ▸ (Tight.ofLevel inside).mpr le_rfl, is⟩
        · exact .inr ⟨rfl, tight.opens is₁ at', is⟩
    exact all.imp_right fun ⟨zero, tight, _⟩ => .inl ⟨zero, tight⟩

end Grammar

end Fragment.Source
