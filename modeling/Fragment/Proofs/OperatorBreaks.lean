import Fragment.Proofs.LayoutEdits

/-! Line breaks behind operators.
An operator cannot end a statement, so the pass drops line breaks behind it. The exception is `>`, which also ends the
arguments of a type: behind it a line break ends the statement wherever one behind a name would. What is looked past for
an arrow may change all the same, since a line break ends a return annotation. -/
namespace Fragment.Source

/-- Operators between two operands, assignments among them. -/
def TokenKind.isInfix : TokenKind → Bool
  | .plus | .minus | .star | .slash | .percent | .starStar | .less | .greater | .lessEqual | .greaterEqual
  | .strictEqual | .strictNotEqual | .looseEqual | .looseNotEqual | .and | .or | .assign | .plusAssign | .minusAssign
  | .starAssign | .slashAssign | .percentAssign => true
  | _ => false

/-- What the layout pass asks about a token, for an operator. -/
structure TokenKind.Joins (k : TokenKind) : Prop where
  solid : k ≠ .newline ∧ k ≠ .semicolon
  opens : k.isOpener = false
  closes : k.isCloser = false
  leads : k ≠ .arrow ∧ k ≠ .colon
  ends : (k.isTerminable || k = .rightBrace) = decide (k = .greater)

theorem TokenKind.joins {k : TokenKind} (operator : k.isInfix = true) : k.Joins := by
  cases k <;> first | exact absurd operator (by decide) | exact ⟨by decide, by decide, by decide, by decide, by decide⟩

namespace Layout

theorem stepOperator {l : Layout} {op : Token} (rest : List Token) (joins : op.kind.Joins) :
    (l.step op rest).2 = (l.poised op.kind).wrote op := by
  rw [stepWrites rest joins.solid.1 joins.solid.2]
  have opens := joins.opens
  have closes := joins.closes
  unfold write
  split <;> simp_all [TokenKind.isOpener, TokenKind.isCloser]

theorem operatorBreakEnds {l : Layout} {op : Token} (rest : List Token) (joins : op.kind.Joins) :
    (l.step op rest).2.pending = none ∧ (l.step op rest).2.breakEnds =
      ((l.step op rest).2.amongStatements && decide (op.kind = .greater)) := by
  rw [stepOperator rest joins]
  refine ⟨poisedPending l op.kind, ?_⟩
  simp [breakEnds, wrote, lastKind, ← joins.ends]

/-- Which line break is pending does not matter before a token that carries on. -/
theorem settleCarries {l : Layout} {kind : TokenKind} (pending : Option Token) (unended : kind ≠ .semicolon)
    (carries : l.carriesOn kind = true) : { l with pending }.settle kind = ([], { l with pending := none }) := by
  simp only [carriesOn, unended, decide_false, Bool.false_or, Bool.and_eq_true] at carries
  have stays : (l.head.any TokenKind.isTypeStatement && kind.isTypeBreak) = false := by
    simpa only [Bool.not_eq_true'] using carries.2
  cases pending with
  | none => rfl
  | some brk => simp only [settle, carries.1, stays, Bool.not_true, Bool.or_self, Bool.false_eq_true, ↓reduceIte]

theorem runCarries {l : Layout} {ts : List Token} (carries : (afterBreaks ts).any (!l.carriesOn ·.kind) = false)
    (p q : Option Token) : { l with pending := p }.run ts = { l with pending := q }.run ts := by
  induction ts generalizing p q with
  | nil => rfl
  | cons t ts ih =>
    by_cases newline : t.kind = .newline
    · have later : (afterBreaks ts).any (!l.carriesOn ·.kind) = false := by simpa [afterBreaks, newline] using carries
      have still (p : Option Token) : ∃ p', { l with pending := p }.step t ts = ([], { l with pending := p' }) := by
        rw [stepBreak ts newline]
        split
        · exact ⟨some t, rfl⟩
        · exact ⟨p, rfl⟩
      obtain ⟨p', stepped⟩ := still p
      obtain ⟨q', stepped'⟩ := still q
      simp only [run, stepped, stepped', List.nil_append]
      exact ih later p' q'
    by_cases semicolon : t.kind = .semicolon
    · simp only [run, step, semicolon]
    · have here : l.carriesOn t.kind = true := by simpa [afterBreaks, newline] using carries
      have same := (settleCarries p semicolon here).trans (settleCarries q semicolon here).symm
      simp only [run, stepWrites ts newline semicolon, poised, same]

/-- Line breaks of which none is turned into a terminator. -/
theorem runUnended {l : Layout} {brk : Token} {more : List Token} (rest : List Token) (settled : l.pending = none)
    (newlines : ∀ b ∈ brk :: more, b.kind = .newline)
    (unended : l.breakEnds = true → (afterBreaks (more ++ rest)).any (!l.carriesOn ·.kind) = false) :
    l.run (brk :: (more ++ rest)) = l.run rest := by
  have others (b) (member : b ∈ more) : b.kind = .newline := newlines b (List.mem_cons_of_mem brk member)
  cases ends : l.breakEnds with
  | false => exact runBreaks l rest (by simp [ends]) newlines
  | true =>
    have skipped : afterBreaks (more ++ rest) = afterBreaks rest := by
      rw [afterBreaks, List.dropWhile_append_of_pos (by simpa using others)]
      rfl
    have carries := runCarries (skipped ▸ unended ends) (some brk) none
    have same : { l with pending := none } = l := by rw [← settled]
    rw [run, stepBreak _ (newlines brk List.mem_cons_self), if_pos (by simp [settled, ends])]
    simp only [List.nil_append]
    rw [runBreaks _ rest rfl others, carries, same]

end Layout

/-- A closing bracket with a colon directly behind it, which may begin a return annotation. -/
def Annotates (x y : Token) : Prop := x.kind.isCloser = true ∧ y.kind = .colon

section Unannotated

variable {op : Token} {ts u v : List Token}

theorem followsUnannotated {x : Token} (joins : op.kind.Joins) (chain : List.IsChain (¬Annotates · ·) (x :: ts))
    (closer : x.kind.isCloser = true) : leadsToArrow (ts ++ op :: u) = leadsToArrow (ts ++ op :: v) := by
  cases ts with
  | nil => simp [leadsToArrow, joins.leads]
  | cons y ts =>
    have plain : y.kind ≠ .colon := fun colon => (List.isChain_cons_cons.mp chain).1 ⟨closer, colon⟩
    simp [leadsToArrow, plain]

theorem closingUnannotated (joins : op.kind.Joins) (same : ∀ depth, afterClosing depth u = afterClosing depth v)
    (chain : List.IsChain (¬Annotates · ·) ts) (depth : Nat) :
    (afterClosing depth (ts ++ op :: u)).any leadsToArrow = (afterClosing depth (ts ++ op :: v)).any leadsToArrow := by
  induction ts generalizing depth with
  | nil => simp [afterClosing, joins.opens, joins.closes, same]
  | cons t ts ih =>
    have later := ih chain.of_cons
    simp only [List.cons_append, afterClosing]
    split
    case isTrue => exact later _
    case isFalse =>
      split
      case isFalse => exact later _
      case isTrue closer =>
        split
        case isTrue => exact followsUnannotated joins chain closer
        case isFalse => exact later _

theorem arrowsAgreeUnannotated (l : Layout) (joins : op.kind.Joins)
    (same : ∀ depth, afterClosing depth u = afterClosing depth v) (chain : List.IsChain (¬Annotates · ·) ts) :
    l.arrowsAgree (ts ++ [op]) u v = true := by
  induction ts generalizing l with
  | nil =>
    have opens := joins.opens
    cases kind : op.kind <;> simp_all [Layout.arrowsAgree, Layout.looksAhead, TokenKind.isOpener]
  | cons t ts ih =>
    have look := closingUnannotated joins same chain 0
    have alike : startsArrow (t :: (ts ++ [op] ++ u)) = startsArrow (t :: (ts ++ [op] ++ v)) := by
      rw [startsArrowEq, startsArrowEq]
      simpa using look
    rw [List.cons_append, Layout.arrowsAgree, alike, ih _ chain.of_cons]
    simp

end Unannotated

theorem breaksAfterOperators {before more rest : List Token} {op brk : Token} (operator : op.kind.isInfix = true)
    (newlines : ∀ b ∈ brk :: more, b.kind = .newline) :
    (EndsStatement (before ++ op :: brk :: (more ++ rest)) (before.length + 1) ↔ op.kind = .greater ∧
      (Layout.read {} (before ++ [op]) (brk :: (more ++ rest))).2.amongStatements = true ∧
      (afterBreaks (more ++ rest)).any
        (!(Layout.read {} (before ++ [op]) (brk :: (more ++ rest))).2.carriesOn ·.kind) = true) ∧
    (¬EndsStatement (before ++ op :: brk :: (more ++ rest)) (before.length + 1) →
      (layOut (before ++ op :: brk :: (more ++ rest)) = layOut (before ++ op :: rest) ↔
        Layout.arrowsAgree {} (before ++ [op]) (brk :: (more ++ rest)) rest = true)) ∧
    (List.IsChain (¬Annotates · ·) before →
      Layout.arrowsAgree {} (before ++ [op]) (brk :: (more ++ rest)) rest = true) := by
  have joins := TokenKind.joins operator
  have newline := newlines brk List.mem_cons_self
  have behind (ts : List Token) : before ++ op :: ts = before ++ [op] ++ ts := by simp
  have place : before.length + 1 = (before ++ [op]).length := by simp
  have last : (Layout.read {} (before ++ [op]) (brk :: (more ++ rest))).2 =
      ((Layout.read {} before (op :: brk :: (more ++ rest))).2.step op (brk :: (more ++ rest))).2 := by
    rw [Layout.readAppend]
    rfl
  obtain ⟨settled, breaks⟩ := Layout.operatorBreakEnds
    (l := (Layout.read {} before (op :: brk :: (more ++ rest))).2) (brk :: (more ++ rest)) joins
  rw [← last] at settled breaks
  have ends := endsStatementIff (before ++ [op]) (more ++ rest) newline
  rw [← place, ← behind] at ends
  refine ⟨?_, fun unended => ⟨fun same => ?_, fun agree => ?_⟩, fun chain => ?_⟩
  · rw [ends, breaks, Bool.and_eq_true, decide_eq_true_eq, and_comm (b := op.kind = .greater), and_assoc]
    exact and_iff_right settled
  · rw [behind, behind rest] at same
    exact ((Layout.runKinds {} _ _ _).mp (congrArg kinds same)).1
  · have stays : (Layout.read {} (before ++ [op]) (brk :: (more ++ rest))).2.breakEnds = true →
        (afterBreaks (more ++ rest)).any
          (!(Layout.read {} (before ++ [op]) (brk :: (more ++ rest))).2.carriesOn ·.kind) = false := by
      intro breaks
      rw [← Bool.not_eq_true]
      exact fun stops => unended (ends.mpr ⟨settled, breaks, stops⟩)
    rw [behind, behind rest, layOut, layOut, Layout.runAppend, Layout.runAppend, ← Layout.readAgrees agree,
      Layout.runUnended rest settled newlines stays]
  · refine arrowsAgreeUnannotated {} joins (fun depth => ?_) chain
    rw [← List.cons_append]
    exact closingGap rest (fun b member => by simp [newlines b member, TokenKind.isGap]) depth

/- In `(a >` and `b)` on the next line but one, the parenthesis keeps the line breaks from ending anything. -/
theorem bracketedBreakDropped : (bareToken .greater).kind.isInfix = true ∧
    ¬EndsStatement ([.leftParen, .name, .greater, .newline, .newline, .name, .rightParen].map bareToken) 3 ∧
    layOut ([.leftParen, .name, .greater, .newline, .newline, .name, .rightParen].map bareToken) =
      layOut ([.leftParen, .name, .greater, .name, .rightParen].map bareToken) := by
  obtain ⟨ends, same, agrees⟩ := @breaksAfterOperators ([.leftParen, .name].map bareToken) [bareToken .newline]
    ([.name, .rightParen].map bareToken) (bareToken .greater) (bareToken .newline) rfl (by simp [bareToken])
  have unended : ¬EndsStatement
      ([.leftParen, .name, .greater, .newline, .newline, .name, .rightParen].map bareToken) 3 :=
    fun stops => absurd (ends.mp stops).2.1 (by decide)
  have plain : List.IsChain (¬Annotates · ·) ([.leftParen, .name].map bareToken) := by
    simp [Annotates, bareToken, TokenKind.isCloser]
  exact ⟨rfl, unended, (same unended).mpr (agrees plain)⟩

/- With `a >` on one line and `b` on the next, the comparison ends behind its operator. -/
theorem comparisonBreakEnds : ¬∀ (before after : List Token) (op brk : Token), op.kind.isInfix = true →
    brk.kind = .newline → ¬EndsStatement (before ++ op :: brk :: after) (before.length + 1) := by
  intro dropped
  exact dropped [bareToken .name] [bareToken .name] (bareToken .greater) (bareToken .newline) rfl rfl (by decide)

end Fragment.Source
