import Fragment.Proofs.ArrowReading
import Fragment.Proofs.LineBreak

/-! Conditionals that are read as the beginning of an arrow function.
In `c ? (a) : x => body` on one line the parenthesis is taken to open parameters, `x` to be a type and `body` the body of
an arrow function, which then is the first branch of the conditional. The second branch is missing. -/
namespace Fragment.Source

namespace Grammar

open Automaton hiding productions

namespace Contents

/-- What a symbol leads to, with rules that come next. -/
def go (c : Contents) (s : Symbol) (rules : List Rule) : Contents := ⟨c.past s, rules⟩

/-- No other production has come to its end, and nothing goes on with the token. -/
def EndsOnly (c : Contents) (p : Production) (k : TokenKind) : Prop :=
  c.Free k ∧ ∀ x ∈ c.marked, x.1.symbols[x.2]? = none → x.1 = p

instance (c : Contents) (p : Production) (k : TokenKind) : Decidable (c.EndsOnly p k) :=
  inferInstanceAs (Decidable (_ ∧ _))

variable {c : Contents} {i j m : Nat} {p q : Production} {s : Symbol} {k : TokenKind} {rules : List Rule}
  {t : Token}

theorem Bounds.goes (bounds : c.Bounds i) (leads : next? productions i s = some j) (closed : (c.go s rules).Closed) :
    (c.go s rules).Bounds j := bounds.after leads (fun _ => id) closed

theorem EndsOnly.reduces (ends : c.EndsOnly p k) (bounds : c.Bounds i)
    (awaits : Awaits productions i p p.symbols.length k) : Reduces productions i p k :=
  bounds.reduces awaits ends.1 fun x is done => .inl (ends.2 x is done)

/-- A token of a production is shifted. -/
theorem Bounds.shifts (stack : List StackEntry) (bounds : c.Bounds (top stack))
    (awaits : Awaits productions (top stack) p m k) {k' : TokenKind} (kind : t.kind = k')
    (inner : k' ≠ .finish) (at_ : p.symbols[m]? = some (.token k')) (closed : (c.go (.token k') rules).Closed)
    (rest : List Token) : ∃ j, (c.go (.token k') rules).Bounds j ∧ Awaits productions j p (m + 1) k ∧
      fragment.Reaches 1 stack (t :: rest) (⟨j, [.leaf t]⟩ :: stack) rest := by
  subst kind
  obtain ⟨j, leads⟩ := awaits.has.leads at_
  exact ⟨j, bounds.goes leads closed, awaits.moves someProductions at_ leads, shiftReaches leads inner⟩

/-- A production that has come to its end makes a node, and what awaits its rule goes on behind it. -/
theorem Bounds.makes (stack : List StackEntry) (bounds : c.Bounds (top stack))
    (awaits : Awaits productions (top stack) p m k) {label : Label} (make : q.make = .node label)
    (at_ : p.symbols[m]? = some (.rule q.rule)) (entries : List StackEntry)
    (count : entries.length = q.symbols.length) (reduces : Reduces productions (top (entries ++ stack)) q t.kind)
    (closed : (c.go (.rule q.rule) rules).Closed) (rest : List Token) : ∃ tree j, (c.go (.rule q.rule) rules).Bounds j ∧
      Awaits productions j p (m + 1) k ∧
      fragment.Reaches 1 (entries ++ stack) (t :: rest) (⟨j, [tree]⟩ :: stack) (t :: rest) := by
  obtain ⟨j, leads⟩ := awaits.has.leads at_
  obtain ⟨extent, run⟩ := nodeReaches label entries stack make count reduces leads rest
  exact ⟨_, j, bounds.goes leads closed, awaits.moves someProductions at_ leads, run⟩

end Contents

def parameter : Production := ⟨.param, [.token .name], .node .param⟩

def parameters : Production := ⟨.paramList, [.rule .param], .node .paramList⟩

def returns : Production := ⟨.returnAnn, [.token .colon, .rule .type], .node .returnAnn⟩

/-- Parameters of an arrow function with a type for its result. -/
def annotated : Production :=
  ⟨.arrowParams, [.token .arrowParen, .rule .paramList, .token .rightParen, .rule .returnAnn], .node .arrowParams⟩

def typeName : Production := ⟨.typeRef, [.token .name], .node .typeRef⟩

/-- The rules that begin where a type does. -/
def typeRules : List Rule :=
  [.type, .unionType, .fnType, .intersectionType, .postfixType, .primaryType, .typeRef, .objectTypeBody]

/-- A name is a type through these rules. -/
def typeSteps : List (Rule × Rule) :=
  [(.primaryType, .typeRef), (.postfixType, .primaryType), (.intersectionType, .postfixType),
    (.unionType, .intersectionType), (.type, .unionType)]

-- The states between the parenthesis and the arrow.
def opening : Contents := (branch 2).go (.token .arrowParen) [.paramList, .param]
def oneName : Contents := opening.go (.token .name) [.typeAnn]
def oneParam : Contents := opening.go (.rule .param) [.moreParamList]
def allParams : Contents := opening.go (.rule .paramList) []
def closing : Contents := allParams.go (.token .rightParen) [.returnAnn]
def returning : Contents := closing.go (.token .colon) typeRules
def namedType : Contents := returning.go (.token .name) [.typeArgs]
def returned : Contents := returning.go (.rule .type) []
def typed : Contents := closing.go (.rule .returnAnn) []

theorem misreadMembers : ∀ p ∈ [parameter, parameters, returns, annotated, typeName, arrowFn,
    only .assignExpr .arrowFunction], p ∈ productions.toList := by decide

set_option maxRecDepth 2048 in
theorem misreadClosed : ∀ c ∈ [opening, oneName, oneParam, allParams, closing, returning, namedType, returned, typed],
    c.Closed := by decide

set_option maxRecDepth 2048 in
theorem misreadEnds : oneName.EndsOnly parameter .rightParen ∧ oneParam.EndsOnly parameters .rightParen ∧
    namedType.EndsOnly typeName .arrow ∧ returned.EndsOnly returns .arrow ∧ typed.EndsOnly annotated .arrow := by
  decide

set_option maxRecDepth 2048 in
theorem typeStepsEnd : ∀ x ∈ typeSteps, only x.1 x.2 ∈ productions.toList ∧ (returning.go (.rule x.2) []).Closed ∧
    (returning.go (.rule x.2) []).EndsOnly (only x.1 x.2) .arrow := by decide

theorem misreadMember {p : Production}
    (is : p ∈ [parameter, parameters, returns, annotated, typeName, arrowFn, only .assignExpr .arrowFunction]) :
    p ∈ productions := Array.mem_toList_iff.mp (misreadMembers p is)

section Reading

variable (stack : List StackEntry) {paren param close colon name arrow : Token}

/-- A name where a type comes next is a type, if an arrow follows. -/
theorem typeReads (bounds : returning.Bounds (top stack)) (awaits : Awaits productions (top stack) returns 1 .arrow)
    (named : name.kind = .name) (points : arrow.kind = .arrow) (rest : List Token) : ∃ tree j, returned.Bounds j ∧
      Awaits productions j returns 2 .arrow ∧
      fragment.Reaches 7 stack (name :: arrow :: rest) (⟨j, [tree]⟩ :: stack) (arrow :: rest) := by
  have step {r r' : Rule} (pair : (r, r') ∈ typeSteps) : only r r' ∈ productions :=
    Array.mem_toList_iff.mp (typeStepsEnd _ pair).1
  have awaits₁ : Awaits productions (top stack) (only .type .unionType) 0 .arrow := awaits.opens (step (by decide)) rfl
  have awaits₂ : Awaits productions (top stack) (only .unionType .intersectionType) 0 .arrow :=
    awaits₁.opens (step (by decide)) rfl
  have awaits₃ : Awaits productions (top stack) (only .intersectionType .postfixType) 0 .arrow :=
    awaits₂.opens (step (by decide)) rfl
  have awaits₄ : Awaits productions (top stack) (only .postfixType .primaryType) 0 .arrow :=
    awaits₃.opens (step (by decide)) rfl
  have awaits₅ : Awaits productions (top stack) (only .primaryType .typeRef) 0 .arrow :=
    awaits₄.opens (step (by decide)) rfl
  have awaits₆ : Awaits productions (top stack) typeName 0 .arrow := awaits₅.opens (misreadMember (by simp)) rfl
  obtain ⟨i, bounds₀, awaits₀, shift⟩ := bounds.shifts stack awaits₆ named (by decide) rfl
    (misreadClosed namedType (by simp)) (arrow :: rest)
  have reduces : Reduces productions i typeName arrow.kind := points ▸ misreadEnds.2.2.1.reduces bounds₀ awaits₀
  obtain ⟨j₆, leads₆⟩ := awaits₅.has.leads (s := .rule .typeRef) rfl
  obtain ⟨extent, make⟩ := nodeReaches .typeRef [⟨i, [.leaf name]⟩] stack rfl rfl reduces leads₆ rest
  -- What a name is becomes a type, one rule after the other.
  have climbs {r r' : Rule} (pair : (r, r') ∈ typeSteps) (awaits : Awaits productions (top stack) (only r r') 0 .arrow)
      {j j' : Nat} (leads : next? productions (top stack) (.rule r') = some j)
      (leads' : next? productions (top stack) (.rule r) = some j') (tree : Tree) :
      fragment.Reaches 1 (⟨j, [tree]⟩ :: stack) (arrow :: rest) (⟨j', [tree]⟩ :: stack) (arrow :: rest) := by
    obtain ⟨-, closed, ends⟩ := typeStepsEnd _ pair
    have reduces := ends.reduces (bounds.goes leads closed) (awaits.moves someProductions rfl leads)
    exact passReaches rest (points ▸ reduces) leads'
  obtain ⟨j₅, leads₅⟩ := awaits₄.has.leads (s := .rule .primaryType) rfl
  obtain ⟨j₄, leads₄⟩ := awaits₃.has.leads (s := .rule .postfixType) rfl
  obtain ⟨j₃, leads₃⟩ := awaits₂.has.leads (s := .rule .intersectionType) rfl
  obtain ⟨j₂, leads₂⟩ := awaits₁.has.leads (s := .rule .unionType) rfl
  obtain ⟨j, leads⟩ := awaits.has.leads (s := .rule .type) rfl
  refine ⟨.node .typeRef extent [.leaf name], j, bounds.goes leads (misreadClosed returned (by simp)),
    awaits.moves someProductions rfl leads, ?_⟩
  exact ((((((shift.trans make).trans (climbs (by decide) awaits₅ leads₆ leads₅ _)).trans
    (climbs (by decide) awaits₄ leads₅ leads₄ _)).trans (climbs (by decide) awaits₃ leads₄ leads₃ _)).trans
    (climbs (by decide) awaits₂ leads₃ leads₂ _)).trans (climbs (by decide) awaits₁ leads₂ leads _))

/-- A name behind the parenthesis is all of the parameters. -/
theorem paramReads (bounds : opening.Bounds (top stack)) (awaits : Awaits productions (top stack) annotated 1 .arrow)
    (takes : param.kind = .name) (closes : close.kind = .rightParen) (rest : List Token) : ∃ tree j, allParams.Bounds j ∧
      Awaits productions j annotated 2 .arrow ∧
      fragment.Reaches 3 stack (param :: close :: rest) (⟨j, [tree]⟩ :: stack) (close :: rest) := by
  have awaits₁ : Awaits productions (top stack) parameters 0 .rightParen :=
    awaits.has.opens (misreadMember (by simp)) rfl
  have awaits₂ : Awaits productions (top stack) parameter 0 .rightParen := awaits₁.opens (misreadMember (by simp)) rfl
  obtain ⟨i, bounds₀, awaits₀, shift⟩ := bounds.shifts stack awaits₂ takes (by decide) rfl
    (misreadClosed oneName (by simp)) (close :: rest)
  have reduces : Reduces productions i parameter close.kind := closes ▸ misreadEnds.1.reduces bounds₀ awaits₀
  obtain ⟨tree, i', bounds', awaits', make⟩ := bounds.makes stack awaits₁ rfl rfl [⟨i, [.leaf param]⟩] rfl reduces
    (misreadClosed oneParam (by simp)) rest
  have reduces' : Reduces productions i' parameters close.kind := closes ▸ misreadEnds.2.1.reduces bounds' awaits'
  obtain ⟨tree', j, bounds'', awaits'', make'⟩ := bounds.makes stack awaits rfl rfl [⟨i', [tree]⟩] rfl reduces'
    (misreadClosed allParams (by simp)) rest
  exact ⟨tree', j, bounds'', awaits'', (shift.trans make).trans make'⟩

/-- Behind the question mark, a name in parentheses and another behind a colon are parameters, if an arrow follows. -/
theorem paramsRead (bounds : (branch 2).Bounds (top stack)) (has : Has productions (top stack) choice 2)
    (opens : paren.kind = .arrowParen) (takes : param.kind = .name) (closes : close.kind = .rightParen)
    (separates : colon.kind = .colon) (named : name.kind = .name) (points : arrow.kind = .arrow) (rest : List Token) :
    ∃ tree j, next? productions (top stack) (.rule .arrowParams) = some j ∧
      fragment.Reaches 15 stack (paren :: param :: close :: colon :: name :: arrow :: rest) (⟨j, [tree]⟩ :: stack)
        (arrow :: rest) := by
  have function : Awaits productions (top stack) (only .assignExpr .arrowFunction) 0 .colon :=
    has.opens (misreadMember (by simp)) rfl
  have heads : Awaits productions (top stack) arrowFn 0 .colon := function.opens (misreadMember (by simp)) rfl
  have awaits : Awaits productions (top stack) annotated 0 .arrow := heads.has.opens (misreadMember (by simp)) rfl
  obtain ⟨i₁, bounds₁, awaits₁, shift₁⟩ := bounds.shifts stack awaits opens (by decide) rfl
    (misreadClosed opening (by simp)) (param :: close :: colon :: name :: arrow :: rest)
  obtain ⟨tree₂, i₂, bounds₂, awaits₂, read₂⟩ := paramReads (⟨i₁, [.leaf paren]⟩ :: stack) bounds₁ awaits₁ takes
    closes (colon :: name :: arrow :: rest)
  obtain ⟨i₃, bounds₃, awaits₃, shift₃⟩ := bounds₂.shifts (⟨i₂, [tree₂]⟩ :: ⟨i₁, [.leaf paren]⟩ :: stack) awaits₂
    closes (by decide) rfl (misreadClosed closing (by simp)) (colon :: name :: arrow :: rest)
  let below : List StackEntry := ⟨i₃, [.leaf close]⟩ :: ⟨i₂, [tree₂]⟩ :: ⟨i₁, [.leaf paren]⟩ :: stack
  have awaits₄ : Awaits productions i₃ returns 0 .arrow := awaits₃.opens (misreadMember (by simp)) rfl
  obtain ⟨i₅, bounds₅, awaits₅, shift₅⟩ := bounds₃.shifts below awaits₄ separates (by decide) rfl
    (misreadClosed returning (by simp)) (name :: arrow :: rest)
  obtain ⟨tree₆, i₆, bounds₆, awaits₆, read₆⟩ := typeReads (⟨i₅, [.leaf colon]⟩ :: below) bounds₅ awaits₅ named
    points rest
  -- Before the arrow come the type of the result and all of the parameters to their ends.
  have reduces₆ : Reduces productions i₆ returns arrow.kind := points ▸ misreadEnds.2.2.2.1.reduces bounds₆ awaits₆
  obtain ⟨tree₇, i₇, bounds₇, awaits₇, make₇⟩ := bounds₃.makes below awaits₃ rfl rfl
    [⟨i₆, [tree₆]⟩, ⟨i₅, [.leaf colon]⟩] rfl reduces₆ (misreadClosed typed (by simp)) rest
  have reduces₇ : Reduces productions i₇ annotated arrow.kind := points ▸ misreadEnds.2.2.2.2.reduces bounds₇ awaits₇
  obtain ⟨j, leads⟩ := heads.has.leads (s := .rule .arrowParams) rfl
  obtain ⟨extent, make⟩ := nodeReaches .arrowParams
    [⟨i₇, [tree₇]⟩, ⟨i₃, [.leaf close]⟩, ⟨i₂, [tree₂]⟩, ⟨i₁, [.leaf paren]⟩] stack rfl rfl reduces₇ leads rest
  exact ⟨_, j, leads, (((((shift₁.trans read₂).trans shift₃).trans shift₅).trans read₆).trans make₇).trans make⟩

end Reading

/-- Behind the first branch of a conditional. -/
def branched : Contents := ⟨[(choice, 3)], []⟩

set_option maxRecDepth 2048 in
theorem branchedClosed : branched.Closed ∧ ∀ x ∈ (branch 2).past (.rule .assignExpr), x ∈ branched.marked := by
  decide

/-- Behind its first branch a conditional goes on with a colon, and with nothing else. -/
theorem branchedExpects {i : Nat} (bounds : branched.Bounds i) (has : Has productions i choice 3) (k : TokenKind) :
    k ∈ fragment.expected i ↔ k = .colon := by
  rw [memExpected]
  constructor
  · intro acts
    by_contra other
    have free : branched.Free k := by
      refine ⟨fun x is at_ => ?_, fun p _ begins => absurd begins List.not_mem_nil⟩
      cases List.mem_singleton.mp is
      cases at_
      exact other rfl
    have none_ := bounds.refuses free fun x is => by
      cases List.mem_singleton.mp is
      exact Option.some_ne_none _
    simp [none_] at acts
  · rintro rfl
    obtain ⟨j, leads⟩ := has.leads (s := .token .colon) rfl
    rw [fragment, shiftAction leads]
    rfl

/-- What begins where the input does. -/
def beginning : Contents := ⟨[], Rule.expr :: (branchRules ++ statementRules)⟩

theorem rankedBegins {r : Rule} {n : Nat} (ranked : rank r = some n) : r ∈ Rule.expr :: branchRules := by
  cases r <;> first | decide | cases ranked

theorem beginningBounds : beginning.Bounds 0 := by
  intro p m has
  obtain ⟨rfl, ⟨n, ranked, -⟩ | statement⟩ := startHas has
  · exact .inr ⟨rfl, List.mem_append_left statementRules (rankedBegins ranked)⟩
  · exact .inr ⟨rfl, List.mem_append_right (Rule.expr :: branchRules) statement⟩

theorem beginningOpens : beginning.OpensArrows := by decide

set_option maxRecDepth 2048 in
theorem functionsOnce : productions.toList.count arrowFn < 2 ∧
    productions.toList.count (only .assignExpr .arrowFunction) < 2 := by decide

/-- Where an arrow function stands for the whole input, the terminator may follow it. -/
theorem endsArrows {i j : Nat} {c : Contents} (bounds : c.Bounds i) (opens : c.OpensArrows) :
    (next? productions i (.rule .arrowParams) = some j → Awaits productions j arrowFn 1 .terminator) ∧
      (next? productions i (.rule .arrowFunction) = some j →
        Awaits productions j (only .assignExpr .arrowFunction) 1 .terminator) := by
  have opened : Opened 0 1 .terminator := (openedBefore startSeat.has rfl : Opened 0 0 _).deeper (by decide) (by decide)
  have function : Awaits productions 0 (only .assignExpr .arrowFunction) 0 .terminator :=
    opened _ (misreadMember (by simp)) rfl
  have heads : Awaits productions 0 arrowFn 0 .terminator := function.opens (misreadMember (by simp)) rfl
  constructor
  · intro leads
    obtain ⟨j', leads'⟩ := heads.has.leads (s := .rule .arrowParams) rfl
    cases sameState bounds beginningBounds leads leads' opens.1 beginningOpens.1 heads.has.isProduction functionsOnce.1
    exact heads.moves someProductions rfl leads'
  · intro leads
    obtain ⟨j', leads'⟩ := function.has.leads (s := .rule .arrowFunction) rfl
    cases sameState bounds beginningBounds leads leads' opens.2 beginningOpens.2 function.has.isProduction functionsOnce.2
    exact function.moves someProductions rfl leads'

/-- The arrow function is read to the end of the input, where the colon is missing. -/
theorem treeOfMisread {c body : Expr} (decides : Formula c) (inner : Formula body) {us ws : List Token}
    {asks paren param close colon name arrow t : Token} (words₁ : us.map Token.word = c.words 3)
    (question : asks.kind = .question) (opens : paren.kind = .arrowParen) (takes : param.kind = .name)
    (closes : close.kind = .rightParen) (separates : colon.kind = .colon) (named : name.kind = .name)
    (points : arrow.kind = .arrow) (words₂ : ws.map Token.word = body.words 1) (ends : t.kind = .terminator) :
    ∃ expected, treeOf ((us ++ [asks]) ++ paren :: param :: close :: colon :: name :: arrow :: ws ++ [t]) =
      .error ⟨t, expected⟩ ∧ ∀ k, k ∈ expected ↔ k = .colon := by
  let ts := (us ++ [asks]) ++ paren :: param :: close :: colon :: name :: arrow :: ws
  let last := endToken (ts ++ [t])
  have opened : Opened 0 0 t.kind := ends ▸ openedBefore startSeat.has rfl
  have stops : Stops 0 t.kind := ends ▸ closerStops (by decide)
  obtain ⟨T, j, j₂, cost, -, seat₂, awaits₂, bounds₂, few, reaches⟩ := questionReads
    (formulaReads decides 3 (by decide)) [⟨0, []⟩] startSeat (by decide) (opened.deeper (by decide) (by decide))
    words₁ question (paren :: param :: close :: colon :: name :: arrow :: (ws ++ t :: [last]))
  let stack : List StackEntry := ⟨j₂, [.leaf asks]⟩ :: ⟨j, [T]⟩ :: [⟨0, []⟩]
  obtain ⟨params, j₃, leads₃, reaches'⟩ := paramsRead stack bounds₂ awaits₂.has opens takes closes separates named points
    (ws ++ t :: [last])
  have function : Awaits productions j₂ (only .assignExpr .arrowFunction) 0 .colon :=
    awaits₂.has.opens (misreadMember (by simp)) rfl
  obtain ⟨j₄, leads₄⟩ := function.has.leads (s := .rule .arrowFunction) rfl
  obtain ⟨j₅, leads₅⟩ := awaits₂.has.leads (s := .rule .assignExpr) rfl
  have awaits₃ : Awaits productions j₃ arrowFn 1 t.kind := ends ▸ (endsArrows bounds₂ branchOpens.1).1 leads₃
  have awaits₄ : Awaits productions j₄ (only .assignExpr .arrowFunction) 1 t.kind :=
    ends ▸ (endsArrows bounds₂ branchOpens.1).2 leads₄
  obtain ⟨B, extent, cost', -, few', reaches''⟩ := arrowEnds stack bounds₂ branchOpens.1 inner
    (stops.tighter (by decide)) leads₃ awaits₃ leads₄ awaits₄ leads₅ params points words₂ [last]
  have expects := branchedExpects (bounds₂.after leads₅ branchedClosed.2 branchedClosed.1)
    (awaits₂.has.moves someProductions rfl leads₅)
  let entries : List StackEntry := ⟨j₅, [.node .arrowFunction extent [params, .leaf arrow, B]]⟩ :: stack
  have refused : fragment.action? (top entries) t.kind = none := Option.not_isSome_iff_eq_none.mp fun acts => by
    cases ends.symm.trans ((expects t.kind).mp (memExpected.mpr acts))
  have run := (reaches.trans reaches').trans reaches''
  have whole : us ++ asks :: (paren :: param :: close :: colon :: name :: arrow :: (ws ++ t :: [last])) =
      ts ++ [t] ++ [last] := by simp [ts]
  rw [whole] at run
  refine ⟨fragment.expected j₅, run.result (refusedRecognized refused) ?_, expects⟩
  simp only [List.length_append, List.length_cons, List.length_nil]
  omega

end Grammar

/-! The layout -/

namespace Layout

section OneLine

variable {us vs : List Token} {asks paren param close colon name arrow : Token}

theorem plainlyUnopened {ts rest : List Token} (plain : ∀ u ∈ ts, u.kind ∈ plainKinds ∧ u.kind ≠ .leftParen) :
    Plainly ts rest := by
  induction ts with
  | nil => trivial
  | cons u ts ih =>
    obtain ⟨here, other⟩ := plain u List.mem_cons_self
    exact ⟨⟨List.mem_cons_of_mem _ here, fun same => absurd same other⟩,
      ih fun v member => plain v (List.mem_cons_of_mem _ member)⟩

/-- On one line the parenthesis before the colon opens parameters, and all else is written as it is. -/
theorem layOutOneLine (plain : ∀ u ∈ us ++ [asks], u.kind ∈ plainKinds ∧ u.kind ≠ .leftParen)
    (question : asks.kind = .question) (opens : paren.kind = .leftParen) (takes : param.kind = .name) (closes : close.kind = .rightParen)
    (separates : colon.kind = .colon) (named : name.kind = .name) (points : arrow.kind = .arrow)
    (plain' : ∀ v ∈ vs, v.kind ∈ plainKinds) : ∃ t : Token, t.kind = .terminator ∧
      layOut ((us ++ [asks]) ++ paren :: param :: close :: colon :: name :: arrow :: vs) =
        (us ++ [asks]) ++ paren.become .arrowParen paren.text :: param :: close :: colon :: name :: arrow :: vs ++ [t] := by
  let tail := param :: close :: colon :: name :: arrow :: vs
  obtain ⟨l, ran, settled, -, last⟩ := runPlain {} rfl rfl (plainlyUnopened plain : Plainly _ (paren :: tail))
  rw [List.getLast?_concat, Option.some_or] at last
  have marked : l.parenMark paren tail = paren.become .arrowParen paren.text := by
    simp [parenMark, looksAhead, opens, settle, settled, lastKind, last, question, TokenKind.isCalleeEnd, startsArrow,
      afterClosing, arrowAfterType, tail, takes, closes, separates, named, points, TokenKind.isOpener, TokenKind.isCloser]
  let l' := { l.poised paren.kind with opened := .paren :: (l.poised paren.kind).opened }.wrote
    (paren.become .arrowParen paren.text)
  have stepped : l.step paren tail = ([paren.become .arrowParen paren.text], l') := by
    rw [stepParen tail opens, marked]
    simp [settle, settled, l']
  have behind : Plainly tail [] := by
    exact ⟨⟨by simp [takes, plainKinds], by simp [takes]⟩, ⟨by simp [closes, plainKinds], by simp [closes]⟩,
      ⟨by simp [separates, plainKinds], by simp [separates]⟩, plainlyArrow named points plain'⟩
  obtain ⟨l'', ran', -, unclosed, last'⟩ := runPlain l' (poisedPending l paren.kind) rfl behind
  have filled : tail ≠ [] := List.cons_ne_nil _ _
  rw [List.getLast?_eq_some_getLast filled, Option.some_or] at last'
  have inner : (tail.getLast filled).kind ∈ .arrow :: plainKinds := behind.kinds _ (List.getLast_mem filled)
  rw [List.append_nil, finishPlain last' unclosed inner] at ran'
  let t := (tail.getLast filled).become .terminator ""
  have whole : l.run (paren :: tail) = paren.become .arrowParen paren.text :: (tail ++ [t]) := by
    simp only [run, stepped, ran', List.singleton_append, t]
  exact ⟨t, rfl, by rw [layOut, ran, whole, ← List.cons_append, ← List.append_assoc]⟩

end OneLine
end Layout

/-! Parsing -/

/-- A text is rejected at the first token that cannot stand where it does. -/
theorem rejectsUnexpected {text : String} {ts : List Token} {e : UnexpectedToken} (lexed : tokens text = .ok ts)
    (refused : treeOf (layOut ts) = .error e) (file : String) :
    parse text file = .error (.diagnostic (e.diagnostic file)) := by
  simp only [parse, parseFrom, lexed, refused, Except.mapError, bind, Except.bind]
  rfl

/-- The message where nothing but a colon may come next. -/
theorem missingColon {e : UnexpectedToken} (expects : ∀ k, k ∈ e.expected ↔ k = .colon) (file : String) : ∃ span,
    e.diagnostic file = parserDiagnostic "E1005" "':' expected." span := by
  have colons (k : TokenKind) : e.expected.contains k = decide (k = .colon) := by
    rw [Bool.eq_iff_iff, List.contains_iff_mem, expects, decide_eq_true_eq]
  simp only [UnexpectedToken.diagnostic, colons]
  exact ⟨_, rfl⟩

section Parsing

variable {c yes body : Expr} {a x : String}

/-- On one line the text is no conditional: a colon is missing at its end. -/
theorem rejectsOneLine (decides : Formula c) (inner : Formula body) (unopened : ∀ w ∈ c.words 3, w.kind ≠ .leftParen)
    (mark : Mark) (spelled : isName a) (spelled' : isName x) (file : String) : ∃ span,
    parse (line (arrowChoice c (.ident mark a) [] x body)) file =
      .error (.diagnostic (parserDiagnostic "E1005" "':' expected." span)) := by
  have first : Formula (.ident mark a) := .name mark spelled
  obtain ⟨ts, lexed, words⟩ := tokensOfWords (choiceLexes decides first inner spelled'
    fun w none => absurd none List.not_mem_nil)
  obtain ⟨front, back, rfl, before, behind⟩ := List.map_eq_append_iff.mp words
  obtain ⟨us, tail, rfl, words₁, later⟩ := List.map_eq_append_iff.mp before
  obtain ⟨asks, tail, rfl, word₁, later⟩ := List.map_eq_cons_iff.mp later
  obtain ⟨paren, tail, rfl, word₂, later⟩ := List.map_eq_cons_iff.mp later
  obtain ⟨param, tail, rfl, word₃, later⟩ := List.map_eq_cons_iff.mp later
  obtain ⟨close, tail, rfl, word₄, later⟩ := List.map_eq_cons_iff.mp later
  obtain ⟨colon, rfl, word₅⟩ := List.map_eq_singleton_iff.mp later
  obtain ⟨name, tail, rfl, word₆, behind⟩ := List.map_eq_cons_iff.mp behind
  obtain ⟨arrow, ws, rfl, word₇, words₂⟩ := List.map_eq_cons_iff.mp behind
  have kind {t : Token} {w : Word} (same : t.word = w) : t.kind = w.kind := congrArg Word.kind same
  have plain : ∀ u ∈ us ++ [asks], u.kind ∈ plainKinds ∧ u.kind ≠ .leftParen := by
    intro u member
    rcases List.mem_append.mp member with test | mark
    · have here : u.word ∈ c.words 3 := words₁ ▸ List.mem_map_of_mem test
      exact ⟨(decides.wordsPlain 3 _ here).kind, unopened _ here⟩
    · rw [List.mem_singleton.mp mark, kind word₁]
      decide
  have plain' : ∀ v ∈ ws, v.kind ∈ plainKinds := fun v member =>
    (inner.wordsPlain 1 v.word (words₂ ▸ List.mem_map_of_mem member)).kind
  obtain ⟨t, ends, laidOut⟩ := Layout.layOutOneLine plain (kind word₁) (kind word₂) (kind word₃) (kind word₄) (kind word₅)
    (kind word₆) (kind word₇) plain'
  obtain ⟨expected, refused, expects⟩ := Grammar.treeOfMisread decides inner words₁ (kind word₁)
    (rfl : (paren.become .arrowParen paren.text).kind = _) (kind word₃) (kind word₄) (kind word₅) (kind word₆) (kind word₇)
    words₂ ends
  have shape : us ++ asks :: (paren :: param :: close :: [colon]) ++ name :: arrow :: ws =
      (us ++ [asks]) ++ paren :: param :: close :: colon :: name :: arrow :: ws := by simp
  obtain ⟨span, diagnosed⟩ := missingColon (e := ⟨t, expected⟩) expects file
  rw [← laidOut, ← shape] at refused
  exact ⟨span, (rejectsUnexpected lexed refused file).trans (by rw [diagnosed])⟩

end Parsing

def called (name : String) : Expr := .ident nowhere name

theorem calledFormula {name : String} (spelled : isName name) : Formula (called name) := .name _ spelled

end Fragment.Source
