import Fragment.Proofs.RoundTrip

/-! How arrow functions are read.
Behind its parameters an arrow function is read in the same states wherever it stands: what comes next in them is only
the arrow, and then its body. -/
namespace Fragment.Source.Grammar

open Automaton hiding productions

/-- An arrow function that is not asynchronous. -/
def arrowFn : Production :=
  ⟨.arrowFunction, [.rule .arrowParams, .token .arrow, .rule .arrowBody], .node .arrowFunction⟩

/-- A production alone at its end. -/
def ended (p : Production) : Contents := ⟨[(p, p.symbols.length)], []⟩

/-- What comes behind the parameters of an arrow function. -/
def headed : Contents := ⟨[(arrowFn, 1)], []⟩

/-- What comes behind the arrow. -/
def pointing : Contents := ⟨[(arrowFn, 2)], .arrowBody :: .block :: branchRules⟩

/-- Only arrow functions go on with their parameters, and only expressions with an arrow function. -/
def Contents.OpensArrows (c : Contents) : Prop :=
  (∀ x ∈ c.past (.rule .arrowParams), x = (arrowFn, 1)) ∧
    ∀ x ∈ c.past (.rule .arrowFunction), x = (only .assignExpr .arrowFunction, 1)

instance (c : Contents) : Decidable c.OpensArrows := inferInstanceAs (Decidable (_ ∧ _))

theorem branchOpens : (branch 2).OpensArrows ∧ (branch 4).OpensArrows := by decide

theorem arrowMembers : ∀ p ∈ [only .assignExpr .arrowFunction, arrowFn, arrowName, only .arrowBody .assignExpr],
    p ∈ productions.toList := by decide

set_option maxRecDepth 2048 in
theorem pointingClosed : pointing.Closed := by decide

theorem pointingPast : (∀ x ∈ headed.past (.token .arrow), x ∈ pointing.marked) ∧
    (∀ x ∈ pointing.past (.rule .assignExpr), x ∈ (ended (only .arrowBody .assignExpr)).marked) ∧
    ∀ x ∈ pointing.past (.rule .arrowBody), x ∈ (ended arrowFn).marked := by decide

set_option maxRecDepth 2048 in
/-- What may begin behind the arrow is an expression, or something that begins otherwise. -/
theorem pointingBegins : ∀ p ∈ productions.toList, p.rule ∈ pointing.rules →
    p = only .arrowBody .assignExpr ∨ (∃ a ∈ rank p.rule, 1 ≤ a) ∨ ∀ s ∈ p.symbols[0]?, spoken s = false := by
  decide

variable {i j : Nat} {p : Production} {k : TokenKind}

theorem endedClosed (p : Production) : (ended p).Closed := by
  refine ⟨fun x is r next => ?_, fun _ _ none => absurd none List.not_mem_nil⟩
  cases List.mem_singleton.mp is
  rw [List.getElem?_eq_none le_rfl] at next
  cases next

theorem endedReduces (bounds : (ended p).Bounds i) (awaits : Awaits productions i p p.symbols.length k) :
    Reduces productions i p k := by
  refine bounds.reduces awaits ⟨fun x is => ?_, fun _ _ none => absurd none List.not_mem_nil⟩ fun x is _ => ?_
  · cases List.mem_singleton.mp is
    simp
  · cases List.mem_singleton.mp is
    exact .inl rfl

theorem pointingSeat (bounds : pointing.Bounds i) (has : Has productions i arrowFn 2) :
    Seat i (only .arrowBody .assignExpr) 0 1 where
  has := has.begins (Array.mem_toList_iff.mp (arrowMembers _ (by simp))) rfl
  inside := by decide
  before := rfl
  behind s is := by simp [only] at is
  others p m has' := by
    rcases bounds p m has' with marked | ⟨rfl, begins⟩
    · cases List.mem_singleton.mp marked
      exact .inr (.inr (by simp [arrowFn, spoken, rank]))
    · rcases pointingBegins p (Array.mem_toList_iff.mpr has'.isProduction) begins with rfl | tight | silent
      · exact .inl ⟨rfl, rfl⟩
      · exact .inr (.inl ⟨rfl, tight⟩)
      · exact .inr (.inr silent)

section Arrows

variable {c : Contents} (stack : List StackEntry) {t arrow : Token} {body : Expr} {ts : List Token}

set_option maxRecDepth 2048 in
/-- From its arrow on, an arrow function whose body is a formula is read to its end. -/
theorem arrowEnds (bounds : c.Bounds (top stack)) (opens : c.OpensArrows) (formula : Formula body)
    (stops : Stops 1 t.kind) {j₁ j₂ : Nat} (leads₁ : next? productions (top stack) (.rule .arrowParams) = some j₁)
    (awaits₁ : Awaits productions j₁ arrowFn 1 t.kind)
    (leads₂ : next? productions (top stack) (.rule .arrowFunction) = some j₂)
    (awaits₂ : Awaits productions j₂ (only .assignExpr .arrowFunction) 1 t.kind)
    (leads : next? productions (top stack) (.rule .assignExpr) = some j) (params : Tree) (points : arrow.kind = .arrow)
    (words : ts.map Token.word = body.words 1) (rest : List Token) : ∃ tree extent cost, Shows ts.length tree body ∧
      cost ≤ 16 * ts.length + 4 ∧ fragment.Reaches cost (⟨j₁, [params]⟩ :: stack) (arrow :: (ts ++ t :: rest))
        (⟨j, [.node .arrowFunction extent [params, .leaf arrow, tree]]⟩ :: stack) (t :: rest) := by
  have member {p : Production} (is : p ∈ [only .assignExpr .arrowFunction, arrowFn, arrowName,
      only .arrowBody .assignExpr]) : p ∈ productions := Array.mem_toList_iff.mp (arrowMembers p is)
  have bounds₁ : headed.Bounds j₁ :=
    bounds.after leads₁ (fun x is => List.mem_singleton.mpr (opens.1 x is)) (by decide)
  obtain ⟨j₃, shifts⟩ := awaits₁.has.leads (s := .token .arrow) rfl
  have bounds₃ : pointing.Bounds j₃ := bounds₁.after shifts pointingPast.1 pointingClosed
  have awaits₃ : Awaits productions j₃ arrowFn 2 t.kind := awaits₁.moves someProductions rfl shifts
  have awaits₄ : Awaits productions j₃ (only .arrowBody .assignExpr) 0 t.kind := awaits₃.opens (member (by simp)) rfl
  have shift : fragment.Reaches 1 (⟨j₁, [params]⟩ :: stack) (arrow :: (ts ++ t :: rest))
      (⟨j₃, [.leaf arrow]⟩ :: ⟨j₁, [params]⟩ :: stack) (ts ++ t :: rest) :=
    shiftReaches (points ▸ shifts) (by simp [points])
  obtain ⟨tree, j₄, cost, shows, leads₄, few, reaches⟩ := formulaReads formula 1 (by decide)
    (⟨j₃, [.leaf arrow]⟩ :: ⟨j₁, [params]⟩ :: stack) (pointingSeat bounds₃ awaits₃.has) le_rfl
    (openedLast awaits₄ rfl) stops words rest
  -- The body comes to its end, then the arrow function, and then it is an expression.
  have bounds₄ := bounds₃.after leads₄ pointingPast.2.1 (endedClosed _)
  obtain ⟨j₅, leads₅⟩ := awaits₃.has.leads (s := .rule .arrowBody) rfl
  have up₄ : fragment.Reaches 1 (⟨j₄, [tree]⟩ :: ⟨j₃, [.leaf arrow]⟩ :: ⟨j₁, [params]⟩ :: stack) (t :: rest)
      (⟨j₅, [tree]⟩ :: ⟨j₃, [.leaf arrow]⟩ :: ⟨j₁, [params]⟩ :: stack) (t :: rest) :=
    passReaches rest (endedReduces bounds₄ (awaits₄.moves someProductions rfl leads₄)) leads₅
  have bounds₅ := bounds₃.after leads₅ pointingPast.2.2 (endedClosed _)
  obtain ⟨extent, up₅⟩ := nodeReaches .arrowFunction [⟨j₅, [tree]⟩, ⟨j₃, [.leaf arrow]⟩, ⟨j₁, [params]⟩] stack rfl rfl
    (endedReduces bounds₅ (awaits₃.moves someProductions rfl leads₅)) leads₂ rest
  have bounds₂ : (ended (only .assignExpr .arrowFunction)).Bounds j₂ :=
    bounds.after leads₂ (fun x is => List.mem_singleton.mpr (opens.2 x is)) (endedClosed _)
  have up₂ : fragment.Reaches 1 (⟨j₂, [.node .arrowFunction extent [params, .leaf arrow, tree]]⟩ :: stack) (t :: rest)
      (⟨j, [.node .arrowFunction extent [params, .leaf arrow, tree]]⟩ :: stack) (t :: rest) :=
    passReaches rest (endedReduces bounds₂ awaits₂) leads
  have run := (((shift.trans reaches).trans up₄).trans up₅).trans up₂
  exact ⟨tree, extent, 1 + cost + 1 + 1 + 1, shows, by omega, run⟩

set_option maxRecDepth 2048 in
/-- An arrow function of one name is read where the second branch of a conditional begins. -/
theorem arrowReads (bounds : (branch 4).Bounds (top stack)) (awaits : Awaits productions (top stack) choice 4 t.kind)
    (formula : Formula body) (stops : Stops 1 t.kind) {name : Token} (named : name.kind = .name)
    (points : arrow.kind = .arrow) (words : ts.map Token.word = body.words 1) (rest : List Token) :
    ∃ tree extent extent' j cost, Shows ts.length tree body ∧ next? productions (top stack) (.rule .assignExpr) = some j ∧
      cost ≤ 16 * ts.length + 6 ∧ fragment.Reaches cost stack (name :: arrow :: (ts ++ t :: rest))
        (⟨j, [.node .arrowFunction extent [.node .arrowParams extent' [.leaf name], .leaf arrow, tree]]⟩ :: stack)
        (t :: rest) := by
  have member {p : Production} (is : p ∈ [only .assignExpr .arrowFunction, arrowFn, arrowName,
      only .arrowBody .assignExpr]) : p ∈ productions := Array.mem_toList_iff.mp (arrowMembers p is)
  have awaits₂ : Awaits productions (top stack) (only .assignExpr .arrowFunction) 0 t.kind :=
    awaits.opens (member (by simp)) rfl
  have awaits₁ : Awaits productions (top stack) arrowFn 0 t.kind := awaits₂.opens (member (by simp)) rfl
  have begins : Awaits productions (top stack) arrowName 0 .arrow := awaits₁.has.opens (member (by simp)) rfl
  obtain ⟨j₁, leads₁⟩ := awaits₁.has.leads (s := .rule .arrowParams) rfl
  obtain ⟨j₂, leads₂⟩ := awaits₂.has.leads (s := .rule .arrowFunction) rfl
  obtain ⟨j, leads⟩ := awaits.has.leads (s := .rule .assignExpr) rfl
  obtain ⟨j₀, shifts⟩ := begins.has.leads (s := .token .name) rfl
  let read : Contents := ⟨[(begun .name, 1), (arrowName, 1)], []⟩
  have bounds₀ : read.Bounds j₀ := bounds.after shifts (by decide) (by decide)
  -- No arrow follows an expression, so the name is that of a parameter.
  have reduces : Reduces productions j₀ arrowName arrow.kind := by
    rw [points]
    refine bounds₀.reduces (begins.moves someProductions rfl shifts) (by decide) fun x is _ => ?_
    rcases List.mem_cons.mp is with rfl | is
    · exact .inr fun i m awaits => absurd (arrowFollows awaits) (by decide)
    · exact .inl (congrArg Prod.fst (List.mem_singleton.mp is))
  obtain ⟨extent', up⟩ := nodeReaches .arrowParams [⟨j₀, [.leaf name]⟩] stack rfl rfl reduces leads₁ (ts ++ t :: rest)
  have shift : fragment.Reaches 1 stack (name :: arrow :: (ts ++ t :: rest)) (⟨j₀, [.leaf name]⟩ :: stack)
      (arrow :: (ts ++ t :: rest)) := shiftReaches (named ▸ shifts) (by simp [named])
  obtain ⟨tree, extent, cost, shows, few, reaches⟩ := arrowEnds stack bounds branchOpens.2 formula stops leads₁
    (awaits₁.moves someProductions rfl leads₁) leads₂ (awaits₂.moves someProductions rfl leads₂) leads
    (.node .arrowParams extent' [.leaf name]) points words rest
  exact ⟨tree, extent, extent', j, 1 + 1 + cost, shows, leads, by omega, (shift.trans up).trans reaches⟩

end Arrows

end Fragment.Source.Grammar

/-! Conditionals whose second branch is an arrow function.
After `c ? (a) :` the layout has to tell whether the parenthesis has opened the parameters of an arrow function with a
type for its result. It looks for an arrow behind the colon, but not beyond the line, so an arrow function on the next
line is read as the second branch. -/
namespace Fragment.Source

/-- The words of `c ? (a) :`. -/
def choiceFront (c a : Expr) : List Word :=
  c.words 3 ++ ⟨.question, "?"⟩ :: (⟨.leftParen, "("⟩ :: (a.words 0 ++ [⟨.rightParen, ")"⟩]) ++ [⟨.colon, ":"⟩])

/-- The words of `c ? (a) : x => body`, with a gap behind the colon. -/
def arrowChoice (c a : Expr) (gap : List Word) (x : String) (body : Expr) : List Word :=
  choiceFront c a ++ (gap ++ ⟨.name, x⟩ :: ⟨.arrow, "=>"⟩ :: body.words 1)

/-- Words on a line, with blanks between them. -/
def line (ws : List Word) : String := " ".intercalate (ws.map (·.text))

def lineBreak : Word := ⟨.newline, "\n"⟩

theorem lineBreakLexes : lineBreak.Lexes :=
  ⟨⟨_, _, rfl, rfl⟩, by rintro _ (rfl | ⟨more, rfl⟩) <;> rfl⟩

theorem arrowLexes : (⟨.arrow, "=>"⟩ : Word).Lexes :=
  ⟨⟨_, _, rfl, rfl⟩, by rintro _ (rfl | ⟨more, rfl⟩) <;> rfl⟩

theorem nameLexes {x : String} (spelled : isName x) : (⟨.name, x⟩ : Word).Lexes := by
  obtain ⟨start, parts, word⟩ := spelled
  exact word ▸ wordLexes start parts

/-! The layout -/

namespace Layout

section Scans

variable {us vs rest : List Token} {nl name arrow t : Token}

/-- Behind a line break no arrow is found that follows a name at once, if it is the only one. -/
theorem arrowBeyondLine (depth : Nat) (plain : ∀ u ∈ us, u.kind ∈ plainKinds) (breaks : nl.kind = .newline)
    (named : name.kind = .name) (free : ∀ v ∈ vs, v.kind ≠ .arrow) (points : arrow.kind = .arrow) :
    arrowAfterType depth (us ++ nl :: name :: arrow :: vs) = false := by
  induction us generalizing depth with
  | nil =>
    cases depth with
    | zero => simp [arrowAfterType, breaks, TokenKind.isOpener, TokenKind.isCloser]
    | succ depth =>
      simpa [arrowAfterType, breaks, named, points, TokenKind.isOpener, TokenKind.isCloser] using
        arrowAfterTypeFree (depth + 1) free
  | cons u us ih =>
    have here := plain u List.mem_cons_self
    have later (depth : Nat) := ih depth fun v member => plain v (List.mem_cons_of_mem _ member)
    rw [List.cons_append]
    unfold arrowAfterType
    split
    · exact later _
    · split
      · split
        · rfl
        · exact later _
      · split
        · split
          · next found => exact absurd (found ▸ here) (by decide)
          all_goals first | rfl | exact later _
        · exact later _

/-- What stands behind the closing parenthesis is no arrow, and no arrow is found beyond the line. -/
theorem closedBeforeLine {depth : Nat} (plain : ∀ u ∈ us, u.kind ∈ plainKinds) (breaks : nl.kind = .newline)
    (named : name.kind = .name) (points : arrow.kind = .arrow) (free : ∀ v ∈ vs, v.kind ≠ .arrow)
    (found : afterClosing depth (us ++ nl :: name :: arrow :: vs) = some (t :: rest)) :
    t.kind ≠ .arrow ∧ (t.kind = .colon → arrowAfterType 0 rest = false) := by
  induction us generalizing depth with
  | nil =>
    have beyond : afterClosing depth vs = some (t :: rest) := by
      simpa [afterClosing, breaks, named, points, TokenKind.isOpener, TokenKind.isCloser] using found
    have inside := afterClosingSubset beyond
    exact ⟨free t (inside List.mem_cons_self), fun _ =>
      arrowAfterTypeFree 0 fun u member => free u (inside (List.mem_cons_of_mem _ member))⟩
  | cons u us ih =>
    have later := fun v member => plain v (List.mem_cons_of_mem u member)
    rw [List.cons_append, afterClosing] at found
    split at found
    · exact ih later found
    · split at found
      · split at found
        · have rest := Option.some.inj found
          cases us with
          | nil =>
            obtain ⟨rfl, -⟩ := List.cons.inj rest
            simp [breaks]
          | cons u' us =>
            obtain ⟨rfl, rfl⟩ := List.cons.inj rest
            have inner := plain u' (by simp)
            refine ⟨fun arrow => absurd (arrow ▸ inner) (by decide), fun _ => ?_⟩
            exact arrowBeyondLine 0 (fun v member => plain v (by simp [member])) breaks named free points
        · exact ih later found
      · exact ih later found

theorem plainlyBeforeLine (plain : ∀ u ∈ us, u.kind ∈ plainKinds) (breaks : nl.kind = .newline)
    (named : name.kind = .name) (points : arrow.kind = .arrow) (free : ∀ v ∈ vs, v.kind ≠ .arrow) :
    Plainly us (nl :: name :: arrow :: vs) := by
  induction us with
  | nil => trivial
  | cons u us ih =>
    refine ⟨⟨List.mem_cons_of_mem _ (plain u List.mem_cons_self), fun _ => ?_⟩,
      ih fun v member => plain v (List.mem_cons_of_mem _ member)⟩
    rw [← List.cons_append, startsArrow]
    split
    · next t rest found =>
      obtain ⟨other, beyond⟩ := closedBeforeLine plain breaks named points free found
      by_cases colon : t.kind = .colon
      · simp [other, beyond colon]
      · simp [other, colon]
    · rfl

theorem plainlyArrow (named : name.kind = .name) (points : arrow.kind = .arrow) (plain : ∀ v ∈ vs, v.kind ∈ plainKinds) :
    Plainly (name :: arrow :: vs) [] :=
  ⟨⟨by simp [named, plainKinds], by simp [named]⟩, ⟨by simp [points], by simp [points]⟩, .ofFormula (by simpa using plain)⟩

end Scans

/-- A line break behind a colon is dropped, and all else is written as it is. -/
theorem layOutBeyondLine {us vs : List Token} {colon nl name arrow : Token}
    (plain : ∀ u ∈ us ++ [colon], u.kind ∈ plainKinds) (separates : colon.kind = .colon) (breaks : nl.kind = .newline)
    (named : name.kind = .name) (points : arrow.kind = .arrow) (plain' : ∀ v ∈ vs, v.kind ∈ plainKinds) :
    ∃ t : Token, t.kind = .terminator ∧
      layOut ((us ++ [colon]) ++ nl :: name :: arrow :: vs) = (us ++ [colon]) ++ name :: arrow :: vs ++ [t] := by
  have free : ∀ v ∈ vs, v.kind ≠ .arrow := fun v member arrow => absurd (arrow ▸ plain' v member) (by decide)
  obtain ⟨l, ran, settled, unclosed, last⟩ :=
    runPlain {} rfl rfl (plainlyBeforeLine plain breaks named points free)
  have stays : l.run (nl :: name :: arrow :: vs) = l.run (name :: arrow :: vs) := by
    have open_ : l.breakEnds = false := by
      rw [List.getLast?_concat, Option.some_or] at last
      simp [breakEnds, lastKind, last, separates, TokenKind.isTerminable]
    simp [run, step, breaks, open_]
  have behind := plainlyArrow named points plain'
  obtain ⟨l', ran', -, unclosed', last'⟩ := runPlain l settled unclosed behind
  have filled : name :: arrow :: vs ≠ [] := List.cons_ne_nil _ _
  rw [List.getLast?_eq_some_getLast filled, Option.some_or] at last'
  have inner := behind.kinds _ (List.getLast_mem filled)
  rw [List.append_nil, finishPlain last' unclosed' inner] at ran'
  rw [layOut, ran, stays, ran', ← List.append_assoc]
  exact ⟨_, rfl, rfl⟩

end Layout

namespace Grammar

open Automaton hiding productions

/-- A conditional with a parenthesis as its first branch and an arrow function as its second. -/
theorem treeOfChoice {c a body : Expr} (decides : Formula c) (first : Formula a) (inner : Formula body)
    {us vs ws : List Token} {asks colon name arrow t : Token} (words₁ : us.map Token.word = c.words 3)
    (question : asks.kind = .question)
    (words₂ : vs.map Token.word = ⟨.leftParen, "("⟩ :: (a.words 0 ++ [⟨.rightParen, ")"⟩]))
    (separates : colon.kind = .colon) (named : name.kind = .name) (points : arrow.kind = .arrow)
    (words₃ : ws.map Token.word = body.words 1) (ends : t.kind = .terminator) :
    ∃ T Y B extent extent₁ extent₂ extent₃ extent₄, Shows us.length T c ∧ Shows vs.length Y a ∧ Shows ws.length B body ∧
      treeOf (us ++ asks :: (vs ++ colon :: name :: arrow :: ws) ++ [t]) = .ok [.node .sourceFile extent
        [.node .exprStmt extent₁ [.node .condExpr extent₂ [T, .leaf asks, Y, .leaf colon,
          .node .arrowFunction extent₃ [.node .arrowParams extent₄ [.leaf name], .leaf arrow, B]], .leaf t]]] := by
  let ts := us ++ asks :: (vs ++ colon :: name :: arrow :: ws)
  let last := endToken (ts ++ [t])
  have opened : Opened 0 0 t.kind := ends ▸ openedBefore startSeat.has rfl
  have stops : Stops 0 t.kind := ends ▸ closerStops (by decide)
  have branch : Reads 0 1 (⟨.leftParen, "("⟩ :: (a.words 0 ++ [⟨.rightParen, ")"⟩])) a :=
    (readsParen (formulaReads first 0 (by decide))).climb (by decide) le_rfl
  obtain ⟨T, j, j₂, cost, shows, seat₂, awaits₂, -, few, reaches⟩ := questionReads
    (formulaReads decides 3 (by decide)) [⟨0, []⟩] startSeat (by decide) (opened.deeper (by decide) (by decide))
    words₁ question (vs ++ colon :: name :: arrow :: (ws ++ t :: [last]))
  obtain ⟨Y, j₃, j₄, cost', shows', seat₄, awaits₄, bounds₄, few', reaches'⟩ := colonReads branch
    (⟨j₂, [.leaf asks]⟩ :: ⟨j, [T]⟩ :: [⟨0, []⟩]) seat₂ awaits₂ words₂ separates
    (name :: arrow :: (ws ++ t :: [last]))
  obtain ⟨B, extent₃, extent₄, j₅, cost'', shows'', leads, few'', reaches''⟩ := arrowReads
    (⟨j₄, [.leaf colon]⟩ :: ⟨j₃, [Y]⟩ :: ⟨j₂, [.leaf asks]⟩ :: ⟨j, [T]⟩ :: [⟨0, []⟩]) bounds₄ awaits₄ inner
    (stops.tighter (by decide)) named points words₃ [last]
  obtain ⟨extent₂, j₆, leads', reduce⟩ := choiceReads [⟨0, []⟩] startSeat (by decide) seat₄ awaits₄ leads [last]
  obtain ⟨j₇, leads'', up⟩ := startSeat.climb (l := 0) (o := 2) le_rfl (by decide) (by decide) opened stops
    (show top [⟨0, []⟩] = 0 from rfl) _ [last] leads'
  have run := (((reaches.trans reaches').trans reaches'').trans reduce).trans up
  have whole : us ++ asks :: (vs ++ colon :: name :: arrow :: (ws ++ t :: [last])) = ts ++ t :: [last] := by simp [ts]
  rw [whole] at run
  have length : ts.length = us.length + vs.length + ws.length + 4 := by
    simp only [ts, List.length_append, List.length_cons]
    omega
  obtain ⟨extent, extent₁, recognized⟩ := treeOfRead ends leads'' (by omega) run
  exact ⟨T, Y, B, extent, extent₁, extent₂, extent₃, extent₄, shows, shows', shows'', recognized⟩

end Grammar

/-! Building -/

section Building

variable {n n' n'' : Nat} {T Y B : Tree} {c a body : Expr}

theorem Shows.unblocked {e : Expr} {tree : Tree} (shows : Shows n tree e) : tree.hasLabel .block = false := by
  cases shows with
  | boolean extent t mark value => cases value <;> rfl
  | _ => rfl

theorem buildsThen {α β : Type} {m : Builder α} {f : α → Builder β} {x : α} {s s' : Nat} (built : m.run s = .ok (x, s')) :
    (m >>= f).run s = (f x).run s' := by
  rw [StateT.run_bind, built]
  rfl

theorem buildsArrow (shows : Shows n B body) {fuel : Nat} (enough : n ≤ fuel) (extent extent' : Extent)
    {name arrow : Token} (named : name.kind = .name) (points : arrow.kind = .arrow) (s : Nat) : ∃ mark mark' body' s',
      (buildExpr (fuel + 1) (.node .arrowFunction extent [.node .arrowParams extent' [.leaf name], .leaf arrow, B])).run s =
        .ok (.arrow mark [.mk mark' name.text none false false] (.expr body') none false, s') ∧ Alike body' body := by
  obtain ⟨body', s', built, alike⟩ := buildsShown shows fuel enough (s + 1)
  refine ⟨⟨s', extent⟩, ⟨s, name.extent⟩, body', s' + 1, ?_, alike⟩
  have unblocked := shows.unblocked
  obtain ⟨label, extent'', children, rfl⟩ := shows.isNode
  have single : (Tree.node .arrowParams extent' [.leaf name]).token? .name = some name := by
    simp [Tree.token?, Tree.tokens, Tree.children, named]
  have plain : (Tree.node .arrowFunction extent [.node .arrowParams extent' [.leaf name], .leaf arrow,
      .node label extent'' children]).hasToken .asyncWord = false := by
    simp [Tree.hasToken, Tree.token?, Tree.tokens, Tree.children, points]
  unfold buildExpr
  simp only [Tree.nodes, Tree.children, List.filter, single, unblocked, plain, Bool.false_eq_true, if_false,
    pure_bind, map_eq_pure_bind, bind_assoc]
  have marked : (Builder.mark name.extent).run s = .ok (⟨s, name.extent⟩, s + 1) := rfl
  rw [buildsThen marked, buildsThen built]
  rfl

/-- A conditional is built from what has been built of its parts. -/
theorem buildsConditional {fuel s s₁ s₂ s₃ : Nat} {N : Tree} {c' a' e' : Expr}
    (test : (buildExpr fuel T).run s = .ok (c', s₁)) (yes : (buildExpr fuel Y).run s₁ = .ok (a', s₂))
    (no : (buildExpr fuel N).run s₂ = .ok (e', s₃)) (extent : Extent) (t₁ t₂ : Token) :
    (buildExpr (fuel + 1) (.node .condExpr extent [T, .leaf t₁, Y, .leaf t₂, N])).run s =
      .ok (.conditional ⟨s₃, extent⟩ c' a' e', s₃ + 1) := by
  unfold buildExpr
  dsimp only
  rw [buildsThen test, buildsThen yes, buildsThen no]
  rfl

theorem buildsChoice (decides : Shows n T c) (first : Shows n' Y a) (second : Shows n'' B body) {fuel : Nat}
    (enough : n + n' + n'' + 2 < fuel) (extent extent' extent'' extent₁ : Extent) {name arrow : Token} (t₁ t₂ t : Token)
    (named : name.kind = .name) (points : arrow.kind = .arrow) (s : Nat) : ∃ mark mark₁ mark₂ mark₃ c' a' body' s',
      (buildStmt fuel (.node .exprStmt extent₁ [.node .condExpr extent [T, .leaf t₁, Y, .leaf t₂,
        .node .arrowFunction extent' [.node .arrowParams extent'' [.leaf name], .leaf arrow, B]], .leaf t])).run s =
        .ok (.expr mark (.conditional mark₁ c' a'
          (.arrow mark₂ [.mk mark₃ name.text none false false] (.expr body') none false)), s') ∧
      Alike c' c ∧ Alike a' a ∧ Alike body' body := by
  obtain ⟨fuel, rfl⟩ := Nat.exists_eq_add_of_le' (by omega : 3 ≤ fuel)
  obtain ⟨c', s₁, built₁, alike₁⟩ := buildsShown decides (fuel + 1) (by omega) s
  obtain ⟨a', s₂, built₂, alike₂⟩ := buildsShown first (fuel + 1) (by omega) s₁
  obtain ⟨mark₂, mark₃, body', s₃, built₃, alike₃⟩ :=
    buildsArrow second (by omega : n'' ≤ fuel) extent' extent'' named points s₂
  refine ⟨⟨s₃ + 1, extent₁⟩, ⟨s₃, extent⟩, mark₂, mark₃, c', a', body', s₃ + 2, ?_, alike₁, alike₂, alike₃⟩
  have built := buildsConditional built₁ built₂ built₃ extent t₁ t₂
  unfold buildStmt
  simp only [Tree.nodes, Tree.children, List.filter]
  rw [buildsThen built]
  rfl

end Building

section Parsing

variable {c a body : Expr} {x : String}

theorem frontPlain (decides : Formula c) (first : Formula a) : ∀ w ∈ choiceFront c a, w.Plain := by
  intro w member
  simp only [choiceFront, List.mem_append, List.mem_cons, List.not_mem_nil, or_false] at member
  rcases member with test | rfl | (rfl | yes | rfl) | rfl
  · exact decides.wordsPlain 3 w test
  · exact ⟨markLexes _ (by simp), by decide⟩
  · exact ⟨markLexes _ (by simp), by decide⟩
  · exact first.wordsPlain 0 w yes
  · exact ⟨markLexes _ (by simp), by decide⟩
  · exact ⟨markLexes _ (by simp), by decide⟩

theorem choiceLexes (decides : Formula c) (first : Formula a) (inner : Formula body) (spelled : isName x) {gap : List Word}
    (blank : ∀ w ∈ gap, w.Lexes) : ∀ w ∈ arrowChoice c a gap x body, w.Lexes := by
  intro w member
  simp only [arrowChoice, List.mem_append, List.mem_cons] at member
  rcases member with front | between | rfl | rfl | no
  · exact (frontPlain decides first w front).lexes
  · exact blank w between
  · exact nameLexes spelled
  · exact arrowLexes
  · exact (inner.wordsPlain 1 w no).lexes

/-- With the arrow function on the next line, the text is the conditional. -/
theorem parsesBeyondLine (decides : Formula c) (first : Formula a) (inner : Formula body) (spelled : isName x)
    (file : String) : ∃ mark mark₁ mark₂ mark₃ c' a' body',
      parse (line (arrowChoice c a [lineBreak] x body)) file = .ok ⟨file, [.expr mark (.conditional mark₁ c' a'
        (.arrow mark₂ [.mk mark₃ x none false false] (.expr body') none false))],
        references (line (arrowChoice c a [lineBreak] x body))⟩ ∧
      Alike c' c ∧ Alike a' a ∧ Alike body' body := by
  have blank : ∀ w ∈ [lineBreak], w.Lexes := fun w member => List.mem_singleton.mp member ▸ lineBreakLexes
  obtain ⟨ts, lexed, words⟩ := tokensOfWords (choiceLexes decides first inner spelled blank)
  obtain ⟨front, back, rfl, before, behind⟩ := List.map_eq_append_iff.mp words
  obtain ⟨us, tail, rfl, words₁, later⟩ := List.map_eq_append_iff.mp before
  obtain ⟨asks, tail, rfl, word₁, later⟩ := List.map_eq_cons_iff.mp later
  obtain ⟨vs, tail, rfl, words₂, later⟩ := List.map_eq_append_iff.mp later
  obtain ⟨colon, rfl, word₂⟩ := List.map_eq_singleton_iff.mp later
  obtain ⟨nl, tail, rfl, word₃, behind⟩ := List.map_eq_cons_iff.mp behind
  obtain ⟨name, tail, rfl, word₄, behind⟩ := List.map_eq_cons_iff.mp behind
  obtain ⟨arrow, ws, rfl, word₅, words₃⟩ := List.map_eq_cons_iff.mp behind
  have kind {t : Token} {w : Word} (same : t.word = w) : t.kind = w.kind := congrArg Word.kind same
  have shape : us ++ asks :: (vs ++ [colon]) = (us ++ asks :: vs) ++ [colon] := by simp
  rw [shape] at before lexed
  have plainBefore : ∀ u ∈ (us ++ asks :: vs) ++ [colon], u.kind ∈ plainKinds := fun u member =>
    (frontPlain decides first u.word (before ▸ List.mem_map_of_mem member)).kind
  have plainBehind : ∀ v ∈ ws, v.kind ∈ plainKinds := fun v member =>
    (inner.wordsPlain 1 v.word (words₃ ▸ List.mem_map_of_mem member)).kind
  obtain ⟨t, ends, laidOut⟩ := Layout.layOutBeyondLine plainBefore (kind word₂) (kind word₃) (kind word₄) (kind word₅)
    plainBehind
  have same : (us ++ asks :: vs) ++ [colon] ++ name :: arrow :: ws ++ [t] =
      us ++ asks :: (vs ++ colon :: name :: arrow :: ws) ++ [t] := by simp
  obtain ⟨T, Y, B, extent, extent₁, extent₂, extent₃, extent₄, shows, shows', shows'', recognized⟩ :=
    Grammar.treeOfChoice decides first inner words₁ (kind word₁) words₂ (kind word₂) (kind word₄) (kind word₅) words₃ ends
  rw [← same, ← laidOut] at recognized
  have enough : us.length + vs.length + ws.length + 2 <
      buildDepth (layOut ((us ++ asks :: vs) ++ [colon] ++ nl :: name :: arrow :: ws)) := by
    rw [buildDepth, laidOut]
    simp only [List.length_append, List.length_cons]
    omega
  obtain ⟨mark, mark₁, mark₂, mark₃, c', a', body', s, built, alike⟩ := buildsChoice shows shows' shows'' enough
    extent₂ extent₃ extent₄ extent₁ asks colon t (kind word₄) (kind word₅) 0
  rw [show name.text = x from congrArg Word.text word₄] at built
  exact ⟨mark, mark₁, mark₂, mark₃, c', a', body', parsesStatement lexed recognized built file, alike⟩

end Parsing

end Fragment.Source
