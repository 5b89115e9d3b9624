import Fragment.Source.Layout

/-! Line breaks after the header of an `if` or a `while`.
The layout pass looks at a break with the token before it, the open brackets and the token after it,
and at parentheses with all the tokens that follow. The main statement says exactly when breaks
between a header and its body leave the kinds of the written tokens as they are. -/
namespace Fragment.Source

/-- The kinds of the tokens, in order. -/
def kinds (ts : List Token) : List TokenKind := ts.map (·.kind)

/-- Kinds that a statement can begin with. -/
def TokenKind.beginsStatement : TokenKind → Bool
  | .name | .number | .string | .trueWord | .falseWord | .leftParen | .leftBracket | .leftBrace
  | .plus | .minus | .bang | .typeofWord | .awaitWord | .asyncWord | .constWord | .letWord | .varWord
  | .returnWord | .breakWord | .continueWord | .ifWord | .whileWord | .functionWord | .typeWord
  | .interfaceWord | .enumWord | .classWord | .importWord | .declareWord | .semicolon => true
  | _ => false

/-- The tokens of `if (condition)` or `while (condition)`. -/
inductive Header : List Token → Prop where
  | mk {keyword opening closing : Token} {condition : List Token}
      (word : keyword.kind = .ifWord ∨ keyword.kind = .whileWord)
      (opens : opening.kind = .leftParen) (closes : closing.kind = .rightParen)
      (matched : afterClosing 0 (opening :: (condition ++ [closing])) = some []) :
      Header (keyword :: opening :: (condition ++ [closing]))

namespace Layout

/-- What is written for `ts` when `rest` follows them, and the layout after them. -/
def read (l : Layout) : List Token → List Token → List Token × Layout
  | [], _ => ([], l)
  | t :: ts, rest =>
    let (written, next) := l.step t (ts ++ rest)
    let (more, last) := next.read ts rest
    (written ++ more, last)

/-- Whether the pass looks past `t` for an arrow. -/
def looksAhead (l : Layout) (t : Token) : Bool :=
  t.kind = .leftParen && !(l.settle t.kind).2.lastKind.any TokenKind.isCalleeEnd

/-- Whether each parenthesis of `ts` that is looked past is read alike before `u` and before `v`. -/
def arrowsAgree (l : Layout) : List Token → List Token → List Token → Bool
  | [], _, _ => true
  | t :: ts, u, v =>
    (!l.looksAhead t || startsArrow (t :: (ts ++ u)) = startsArrow (t :: (ts ++ v))) &&
      (l.step t (ts ++ u)).2.arrowsAgree ts u v

/-- Whether a line break that ends statements is dropped before a token of this kind. -/
def carriesOn (l : Layout) (kind : TokenKind) : Bool :=
  kind = .semicolon ||
    (kind.isContinuation && !(l.head.any TokenKind.isTypeStatement && kind.isTypeBreak))

theorem readAppend (l : Layout) (a b rest : List Token) :
    (l.read (a ++ b) rest).2 = ((l.read a (b ++ rest)).2.read b rest).2 := by
  induction a generalizing l with
  | nil => rfl
  | cons t a ih =>
    simp only [List.cons_append, read, List.append_assoc]
    exact ih _

/-- The layout in which a token that is neither a line break nor a semicolon is written. -/
def poised (l : Layout) (kind : TokenKind) : Layout :=
  let settled := (l.settle kind).2
  if settled.atStatementStart then { settled with head := some kind } else settled

theorem stepWrites {l : Layout} {t : Token} (rest : List Token) (unbroken : t.kind ≠ .newline)
    (unended : t.kind ≠ .semicolon) :
    l.step t rest = ((l.settle t.kind).1 ++ ((l.poised t.kind).write t rest).1,
      ((l.poised t.kind).write t rest).2) := by
  unfold step poised
  split
  · contradiction
  · contradiction
  · rfl

theorem poisedLast (l : Layout) (kind : TokenKind) :
    (l.poised kind).lastKind = (l.settle kind).2.lastKind := by
  unfold poised
  by_cases start : (l.settle kind).2.atStatementStart = true
  · simp only [start, ↓reduceIte]
    rfl
  · simp only [start]
    rfl

/-- The token written for an opening parenthesis. -/
def parenMark (l : Layout) (t : Token) (rest : List Token) : Token :=
  if l.looksAhead t && startsArrow (t :: rest) then t.become .arrowParen t.text else t

theorem stepParen {l : Layout} {t : Token} (rest : List Token) (paren : t.kind = .leftParen) :
    l.step t rest = ((l.settle t.kind).1 ++ [l.parenMark t rest],
      { l.poised t.kind with opened := .paren :: (l.poised t.kind).opened }.wrote
        (l.parenMark t rest)) := by
  have asked : (!(l.poised t.kind).lastKind.any TokenKind.isCalleeEnd) = l.looksAhead t := by
    rw [poisedLast]
    simp [looksAhead, paren]
  rw [stepWrites rest (by simp [paren]) (by simp [paren])]
  simp only [write, paren] at asked ⊢
  simp only [asked]
  rfl

/- The tokens that follow reach a step only through the question whether an arrow follows. -/
theorem stepSame {l : Layout} {t : Token} {u v : List Token}
    (agree : l.looksAhead t = true → startsArrow (t :: u) = startsArrow (t :: v)) :
    l.step t u = l.step t v := by
  by_cases paren : t.kind = .leftParen
  · have same : l.parenMark t u = l.parenMark t v := by
      unfold parenMark
      cases asked : l.looksAhead t with
      | false => rfl
      | true => rw [agree asked]
    rw [stepParen u paren, stepParen v paren, same]
  · unfold step write
    cases kind : t.kind <;> first | contradiction | rfl

/- Where the answers differ, one side writes an arrow parenthesis and the other a plain one. -/
theorem stepDiffers {l : Layout} {t : Token} {u v : List Token} (asked : l.looksAhead t = true)
    (differ : startsArrow (t :: u) ≠ startsArrow (t :: v)) (a b : List Token) :
    kinds ((l.step t u).1 ++ a) ≠ kinds ((l.step t v).1 ++ b) := by
  have paren : t.kind = .leftParen := by
    simp only [looksAhead, Bool.and_eq_true, decide_eq_true_eq] at asked
    exact asked.1
  have marks : (l.parenMark t u).kind ≠ (l.parenMark t v).kind := by
    unfold parenMark
    cases left : startsArrow (t :: u) <;> cases right : startsArrow (t :: v) <;>
      simp_all [Token.become]
  rw [stepParen u paren, stepParen v paren]
  simp [kinds, marks]

/-- Two continuations of one text are written alike exactly when they answer alike every look ahead
in that text, and are written alike after it. -/
theorem runKinds (l : Layout) (ts u v : List Token) :
    kinds (l.run (ts ++ u)) = kinds (l.run (ts ++ v)) ↔
      l.arrowsAgree ts u v = true ∧
        kinds ((l.read ts u).2.run u) = kinds ((l.read ts u).2.run v) := by
  induction ts generalizing l with
  | nil => simp [arrowsAgree, read]
  | cons t ts ih =>
    by_cases agree : l.looksAhead t = true → startsArrow (t :: (ts ++ u)) = startsArrow (t :: (ts ++ v))
    · have same := stepSame agree
      have here : (!l.looksAhead t || decide (startsArrow (t :: (ts ++ u)) = startsArrow (t :: (ts ++ v))))
          = true := by
        cases asked : l.looksAhead t with
        | false => rfl
        | true => simp [agree asked]
      have step := ih (l.step t (ts ++ u)).2
      simp only [List.cons_append, run, read, arrowsAgree, here, Bool.true_and, ← same, kinds,
        List.map_append, List.append_cancel_left_eq] at step ⊢
      exact step
    · obtain ⟨asked, differ⟩ := Classical.not_imp.mp agree
      constructor
      · intro same
        exact absurd same (stepDiffers asked differ _ _)
      · intro both
        simp [arrowsAgree, asked, differ] at both

theorem settleOpened (l : Layout) (kind : TokenKind) : (l.settle kind).2.opened = l.opened := by
  unfold settle
  split
  · rfl
  · dsimp only
    split <;> rfl

theorem poisedOpened (l : Layout) (kind : TokenKind) : (l.poised kind).opened = l.opened := by
  have kept := settleOpened l kind
  unfold poised
  by_cases start : (l.settle kind).2.atStatementStart = true
  · simp only [start, ↓reduceIte]
    exact kept
  · simp only [start]
    exact kept

theorem writeOpened (l : Layout) (t : Token) (rest : List Token) :
    (t.kind.isOpener = true ∧ ∃ bracket, (l.write t rest).2.opened = bracket :: l.opened) ∨
    (t.kind.isOpener = false ∧ t.kind.isCloser = true ∧ (l.write t rest).2.opened = l.opened.tail) ∨
    (t.kind.isOpener = false ∧ t.kind.isCloser = false ∧ (l.write t rest).2.opened = l.opened) := by
  unfold write
  split <;> rename_i kind
  · refine .inl ⟨by rw [kind]; rfl, ?_⟩
    dsimp only
    split <;> exact ⟨_, rfl⟩
  · exact .inl ⟨by rw [kind]; rfl, _, rfl⟩
  · exact .inl ⟨by rw [kind]; rfl, _, rfl⟩
  · exact .inr (.inl ⟨by rw [kind]; rfl, by rw [kind]; rfl, rfl⟩)
  · exact .inr (.inl ⟨by rw [kind]; rfl, by rw [kind]; rfl, rfl⟩)
  · exact .inr (.inl ⟨by rw [kind]; rfl, by rw [kind]; rfl, rfl⟩)
  · refine .inr (.inr ⟨?_, ?_, rfl⟩) <;> simp_all [TokenKind.isOpener, TokenKind.isCloser]

theorem stepOpened (l : Layout) (t : Token) (rest : List Token) :
    (t.kind.isOpener = true ∧ ∃ bracket, (l.step t rest).2.opened = bracket :: l.opened) ∨
    (t.kind.isOpener = false ∧ t.kind.isCloser = true ∧ (l.step t rest).2.opened = l.opened.tail) ∨
    (t.kind.isOpener = false ∧ t.kind.isCloser = false ∧ (l.step t rest).2.opened = l.opened) := by
  by_cases newline : t.kind = .newline
  · have kept : (l.step t rest).2.opened = l.opened := by
      simp only [step, newline]
      split <;> rfl
    exact .inr (.inr ⟨by rw [newline]; rfl, by rw [newline]; rfl, kept⟩)
  by_cases semicolon : t.kind = .semicolon
  · have kept : (l.step t rest).2.opened = l.opened := by
      simp only [step, semicolon]
      rfl
    exact .inr (.inr ⟨by rw [semicolon]; rfl, by rw [semicolon]; rfl, kept⟩)
  have written := writeOpened (l.poised t.kind) t rest
  rw [poisedOpened] at written
  rw [stepWrites rest newline semicolon]
  exact written

/- Reading closers and openers in step with `afterClosing` takes the innermost brackets off. -/
theorem readOpened {depth : Nat} {ts : List Token} (l : Layout) (rest : List Token)
    (inside : 0 < depth) (matched : afterClosing depth ts = some []) :
    (l.read ts rest).2.opened = l.opened.drop depth := by
  induction ts generalizing l depth with
  | nil => simp [afterClosing] at matched
  | cons t ts ih =>
    simp only [afterClosing] at matched
    simp only [read]
    obtain ⟨opener, bracket, opened⟩ | ⟨opener, closer, opened⟩ | ⟨opener, closer, opened⟩ :=
      stepOpened l t (ts ++ rest)
    · simp only [opener, ↓reduceIte] at matched
      rw [ih _ (Nat.succ_pos depth) matched, opened, List.drop_succ_cons]
    · simp only [opener, closer, ↓reduceIte, Bool.false_eq_true] at matched
      by_cases outermost : depth ≤ 1
      · simp only [outermost, ↓reduceIte, Option.some.injEq] at matched
        have one : depth = 1 := by omega
        subst matched one
        simp only [read, opened, List.drop_one]
      · simp only [outermost, ↓reduceIte] at matched
        rw [ih _ (by omega) matched, opened, ← List.drop_one, List.drop_drop]
        congr 1
        omega
    · simp only [opener, closer, ↓reduceIte, Bool.false_eq_true] at matched
      rw [ih _ inside matched, opened]

theorem headerKeepsOpened {header : List Token} (l : Layout) (rest : List Token)
    (shape : Header header) : (l.read header rest).2.opened = l.opened := by
  cases shape with
  | @mk keyword opening closing condition word opens closes matched =>
    have opener : opening.kind.isOpener = true := by rw [opens]; rfl
    simp only [afterClosing, opener, ↓reduceIte, Nat.zero_add] at matched
    simp only [read]
    rw [readOpened _ rest Nat.one_pos matched]
    obtain ⟨-, bracket, opened⟩ | ⟨neither, -⟩ | ⟨neither, -⟩ :=
      stepOpened (l.step keyword (opening :: (condition ++ [closing]) ++ rest)).2 opening
        (condition ++ [closing] ++ rest)
    · rw [opened, List.drop_succ_cons, List.drop_zero]
      obtain ⟨opener, -⟩ | ⟨-, closer, -⟩ | ⟨-, -, kept⟩ :=
        stepOpened l keyword (opening :: (condition ++ [closing]) ++ rest)
      · rcases word with word | word <;> simp [word, TokenKind.isOpener] at opener
      · rcases word with word | word <;> simp [word, TokenKind.isCloser] at closer
      · exact kept
    · rw [opener] at neither
      contradiction
    · rw [opener] at neither
      contradiction

/-- What a layout is just after a closing parenthesis. -/
structure Closed (l : Layout) : Prop where
  last : l.lastKind = some .rightParen
  plain : l.closedBlock = false
  settled : l.pending = none

theorem settlePending (l : Layout) (kind : TokenKind) : (l.settle kind).2.pending = none := by
  unfold settle
  split
  · assumption
  · dsimp only
    split <;> rfl

theorem poisedPending (l : Layout) (kind : TokenKind) : (l.poised kind).pending = none := by
  have none := settlePending l kind
  unfold poised
  by_cases start : (l.settle kind).2.atStatementStart = true
  · simp only [start, ↓reduceIte]
    exact none
  · simp only [start]
    exact none

theorem stepCloses {t : Token} (l : Layout) (rest : List Token) (closes : t.kind = .rightParen) :
    (l.step t rest).2.Closed := by
  rw [stepWrites rest (by simp [closes]) (by simp [closes])]
  simp only [write, closes]
  exact ⟨by simp [lastKind, wrote, closes], rfl, poisedPending l .rightParen⟩

theorem headerCloses {header : List Token} (l : Layout) (rest : List Token)
    (shape : Header header) : (l.read header rest).2.Closed := by
  cases shape with
  | @mk keyword opening closing condition word opens closes matched =>
    have last : keyword :: opening :: (condition ++ [closing]) =
        (keyword :: opening :: condition) ++ [closing] := by simp
    rw [last, readAppend]
    exact stepCloses _ _ closes

theorem closedBreakEnds {l : Layout} (closed : l.Closed) : l.breakEnds = l.amongStatements := by
  simp [breakEnds, closed.last, closed.plain, TokenKind.isTerminable]

theorem runBreaks (l : Layout) {breaks : List Token} (rest : List Token)
    (unmoved : (l.pending.isNone && l.breakEnds) = false)
    (newlines : ∀ b ∈ breaks, b.kind = .newline) : l.run (breaks ++ rest) = l.run rest := by
  induction breaks with
  | nil => rfl
  | cons b breaks ih =>
    have newline := newlines b (List.mem_cons_self ..)
    have more := ih fun c member => newlines c (List.mem_cons_of_mem b member)
    simp only [List.cons_append, run, step, newline, unmoved, Bool.false_eq_true, ↓reduceIte,
      List.nil_append]
    exact more

theorem runClosedBreaks {l : Layout} {brk : Token} {breaks : List Token} (rest : List Token)
    (closed : l.Closed) (newlines : ∀ b ∈ brk :: breaks, b.kind = .newline) :
    l.run (brk :: breaks ++ rest) =
      (if l.amongStatements then { l with pending := some brk } else l).run rest := by
  have newline := newlines brk (List.mem_cons_self ..)
  have others : ∀ b ∈ breaks, b.kind = .newline :=
    fun b member => newlines b (List.mem_cons_of_mem brk member)
  have ends := closedBreakEnds closed
  simp only [List.cons_append, run, step, newline, List.nil_append, closed.settled, ends,
    Option.isNone_none, Bool.true_and]
  cases among : l.amongStatements with
  | true => exact runBreaks _ rest rfl others
  | false => exact runBreaks l rest (by simp [ends, among]) others

theorem settleClosed {l : Layout} (closed : l.Closed) (kind : TokenKind) :
    l.settle kind = ([], l) := by
  simp [settle, closed.settled]

theorem settleCarriesOn {l : Layout} {kind : TokenKind} (brk : Token) (closed : l.Closed)
    (unended : kind ≠ .semicolon) (carries : l.carriesOn kind = true) :
    { l with pending := some brk }.settle kind = ([], l) := by
  have same : { l with pending := none } = l := by rw [← closed.settled]
  simp only [carriesOn, unended, decide_false, Bool.false_or, Bool.and_eq_true] at carries
  have stays : (l.head.any TokenKind.isTypeStatement && kind.isTypeBreak) = false := by
    simpa only [Bool.not_eq_true'] using carries.2
  simp only [settle, carries.1, stays, Bool.not_true, Bool.or_self, Bool.false_eq_true, ↓reduceIte,
    same]

theorem settleEnds {l : Layout} {kind : TokenKind} (brk : Token)
    (ends : l.carriesOn kind = false) :
    ({ l with pending := some brk }.settle kind).1 = [brk.become .terminator brk.text] := by
  simp only [carriesOn, Bool.or_eq_false_iff, Bool.and_eq_false_iff, Bool.not_eq_false'] at ends
  simp only [settle]
  rw [if_pos]
  rcases ends.2 with stops | types
  · simp [stops]
  · simp [types]

theorem writeHead {t : Token} (l : Layout) (rest : List Token)
    (begins : t.kind.beginsStatement = true) :
    ∃ w, (l.write t rest).1 = [w] ∧ w.kind ≠ .terminator := by
  have notEnd : t.kind ≠ .terminator := by
    intro kind
    unfold TokenKind.beginsStatement at begins
    simp [kind] at begins
  unfold write
  split <;> rename_i kind
  · dsimp only
    split
    · exact ⟨t, rfl, notEnd⟩
    · exact ⟨_, rfl, by simp [Token.become]⟩
  · refine ⟨_, rfl, ?_⟩
    split
    · simp [Token.become]
    · exact notEnd
  · exact ⟨t, rfl, notEnd⟩
  · exact ⟨t, rfl, notEnd⟩
  · exact ⟨t, rfl, notEnd⟩
  · unfold TokenKind.beginsStatement at begins
    simp [kind] at begins
  · exact ⟨t, rfl, notEnd⟩

/- A pending break that ends the statement shows as a terminator before the body's first token. -/
theorem runPending {l : Layout} {t : Token} (brk : Token) (rest : List Token) (closed : l.Closed)
    (begins : t.kind.beginsStatement = true) :
    kinds ({ l with pending := some brk }.run (t :: rest)) = kinds (l.run (t :: rest)) ↔
      l.carriesOn t.kind = true := by
  have unbroken : t.kind ≠ .newline := by
    intro newline
    unfold TokenKind.beginsStatement at begins
    simp [newline] at begins
  by_cases semicolon : t.kind = .semicolon
  · simp [run, step, semicolon, carriesOn]
  cases carries : l.carriesOn t.kind with
  | true =>
    have same := settleCarriesOn brk closed semicolon carries
    simp only [run, stepWrites rest unbroken semicolon, poised, same, settleClosed closed]
  | false =>
    obtain ⟨w, written, kind⟩ := writeHead (l.poised t.kind) rest begins
    have ended := settleEnds brk carries
    simp only [run, stepWrites rest unbroken semicolon, ended, settleClosed closed, written]
    simp [kinds, Token.become, kind.symm]

end Layout

theorem headerBreakKeepsKindsIff {before header breaks rest : List Token} {t : Token}
    (shape : Header header) (broken : breaks ≠ []) (newlines : ∀ b ∈ breaks, b.kind = .newline)
    (begins : t.kind.beginsStatement = true) :
    kinds (layOut (before ++ header ++ (breaks ++ t :: rest))) =
        kinds (layOut (before ++ header ++ t :: rest)) ↔
      Layout.arrowsAgree {} (before ++ header) (t :: rest) (breaks ++ t :: rest) = true ∧
        ((Layout.read {} before (header ++ t :: rest)).2.amongStatements = true →
          (Layout.read {} (before ++ header) (t :: rest)).2.carriesOn t.kind = true) := by
  obtain ⟨brk, more, rfl⟩ := List.exists_cons_of_ne_nil broken
  have after := Layout.readAppend {} before header (t :: rest)
  have closed := Layout.headerCloses (Layout.read {} before (header ++ t :: rest)).2 (t :: rest) shape
  have opened := Layout.headerKeepsOpened (Layout.read {} before (header ++ t :: rest)).2 (t :: rest) shape
  rw [← after] at closed opened
  have among : (Layout.read {} before (header ++ t :: rest)).2.amongStatements =
      (Layout.read {} (before ++ header) (t :: rest)).2.amongStatements := by
    simp only [Layout.amongStatements, opened]
  rw [eq_comm]
  unfold layOut
  rw [Layout.runKinds, Layout.runClosedBreaks _ closed newlines, among]
  refine and_congr_right fun _ => ?_
  cases stand : (Layout.read {} (before ++ header) (t :: rest)).2.amongStatements with
  | true =>
    simp only [↓reduceIte, true_imp_iff]
    rw [eq_comm]
    exact Layout.runPending brk rest closed begins
  | false => simp


/-- A token of this kind at the start of a text. -/
def bareToken (kind : TokenKind) : Token := ⟨kind, "", ⟨⟨1, 1⟩, ⟨1, 1⟩⟩⟩

/-- The tokens of `if (c)`. -/
def bareHeader : List Token := [.ifWord, .leftParen, .name, .rightParen].map bareToken

theorem bareHeaderShape : Header bareHeader :=
  @Header.mk _ _ _ [bareToken .name] (.inl rfl) rfl rfl rfl

/- A break before a parenthesised body, as in `if (c)` with `(s)` on the next line, is dropped. -/
theorem headerBreakKeepsParenthesisedBody :
    (TokenKind.leftParen).beginsStatement = true ∧
      kinds (layOut ([] ++ bareHeader ++
          ([bareToken .newline] ++ bareToken .leftParen :: [.name, .rightParen].map bareToken))) =
        kinds (layOut ([] ++ bareHeader ++
          bareToken .leftParen :: [.name, .rightParen].map bareToken)) := by
  refine ⟨rfl, (headerBreakKeepsKindsIff bareHeaderShape (by simp) ?_ rfl).mpr ⟨?_, ?_⟩⟩
  · simp [bareToken]
  · decide
  · decide

/- A break before a name is not: `if (c)` with `s` on the next line guards the empty statement. -/
theorem headerBreakEndsStatement :
    ¬ ∀ (before header breaks rest : List Token) (t : Token), Header header → breaks ≠ [] →
      (∀ b ∈ breaks, b.kind = .newline) → t.kind.beginsStatement = true →
      kinds (layOut (before ++ header ++ (breaks ++ t :: rest))) =
        kinds (layOut (before ++ header ++ t :: rest)) := by
  intro always
  have same := always [] bareHeader [bareToken .newline] [] (bareToken .name) bareHeaderShape
    (by simp) (by simp [bareToken]) rfl
  revert same
  decide

end Fragment.Source
