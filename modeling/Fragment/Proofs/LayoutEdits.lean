import Fragment.Proofs.TerminatorOrigins

/-! Edits of line breaks that the layout pass does not see.
More line breaks behind a line break change nothing, and a line break that ends a statement may as well be a semicolon.
Both edits leave alone what the pass sees when it looks ahead for an arrow; from there on the two runs come together at
the next token that is no line break. -/
namespace Fragment.Source

/-- Whether an arrow follows, with or without a return annotation before it. -/
def leadsToArrow : List Token → Bool
  | [] => false
  | t :: rest => t.kind = .arrow || (t.kind = .colon && arrowAfterType 0 rest)

theorem startsArrowEq (ts : List Token) : startsArrow ts = (afterClosing 0 ts).any leadsToArrow := by
  unfold startsArrow
  split <;> rename_i found
  · simp [found, leadsToArrow]
  · cases closed : afterClosing 0 ts with
    | none => rfl
    | some rest =>
      cases rest with
      | nil => rfl
      | cons t rest => exact absurd closed (found t rest)

/-- Two texts that look alike from every place before them. -/
structure AlikeAhead (u v : List Token) : Prop where
  closing (depth : Nat) : (afterClosing depth u).any leadsToArrow = (afterClosing depth v).any leadsToArrow
  annotation (depth : Nat) : arrowAfterType depth u = arrowAfterType depth v
  follows : leadsToArrow u = leadsToArrow v

section AlikeAhead

variable {u v : List Token}

theorem AlikeAhead.cons (alike : AlikeAhead u v) (t : Token) : AlikeAhead (t :: u) (t :: v) where
  closing depth := by
    simp only [afterClosing]
    repeat' split
    · exact alike.closing _
    · exact alike.follows
    · exact alike.closing _
    · exact alike.closing _
  annotation depth := by
    simp only [arrowAfterType]
    repeat' split
    all_goals first | rfl | exact alike.annotation _
  follows := by simp only [leadsToArrow, alike.annotation 0]

theorem AlikeAhead.append (alike : AlikeAhead u v) (ts : List Token) : AlikeAhead (ts ++ u) (ts ++ v) := by
  induction ts with
  | nil => exact alike
  | cons t ts ih => exact ih.cons t

theorem AlikeAhead.arrowsAgree (alike : AlikeAhead u v) (l : Layout) (ts : List Token) :
    l.arrowsAgree ts u v = true := by
  induction ts generalizing l with
  | nil => rfl
  | cons t ts ih =>
    have same : startsArrow (t :: (ts ++ u)) = startsArrow (t :: (ts ++ v)) := by
      rw [startsArrowEq, startsArrowEq]
      exact ((alike.append ts).cons t).closing 0
    simp [Layout.arrowsAgree, same, ih]

end AlikeAhead

theorem TokenKind.gapCases {k : TokenKind} (gap : k.isGap = true) : k = .newline ∨ k = .semicolon := by
  cases k <;> first | exact .inl rfl | exact .inr rfl | exact absurd gap (by decide)

/- Closing brackets are looked for across line breaks and semicolons. -/
theorem closingGap {gap : List Token} (rest : List Token) (all : ∀ t ∈ gap, t.kind.isGap = true) (depth : Nat) :
    afterClosing depth (gap ++ rest) = afterClosing depth rest := by
  induction gap with
  | nil => rfl
  | cons t gap ih =>
    obtain ⟨opener, closer⟩ : t.kind.isOpener = false ∧ t.kind.isCloser = false := by
      rcases TokenKind.gapCases (all t List.mem_cons_self) with kind | kind <;> rw [kind] <;> exact ⟨rfl, rfl⟩
    simp only [List.cons_append, afterClosing, opener, closer, Bool.false_eq_true, ↓reduceIte]
    exact ih fun s member => all s (List.mem_cons_of_mem t member)

/- At the depth of the annotation they end the search for its arrow, deeper they do not matter. -/
theorem annotationGap {t : Token} {gap : List Token} (rest : List Token) (all : ∀ s ∈ t :: gap, s.kind.isGap = true)
    (depth : Nat) : arrowAfterType depth (t :: gap ++ rest) = (depth ≠ 0 && arrowAfterType depth rest) := by
  have one {s : Token} (isGap : s.kind.isGap = true) (ts : List Token) :
      arrowAfterType depth (s :: ts) = (depth ≠ 0 && arrowAfterType depth ts) := by
    rcases TokenKind.gapCases isGap with kind | kind <;>
      simp [arrowAfterType, kind, TokenKind.isOpener, TokenKind.isCloser]
  induction gap generalizing t with
  | nil => exact one (all t List.mem_cons_self) rest
  | cons s gap ih =>
    rw [List.cons_append, one (all t List.mem_cons_self), ih fun x member => all x (List.mem_cons_of_mem t member),
      ← Bool.and_assoc, Bool.and_self]

/-- Line breaks and semicolons look alike, however many there are. -/
theorem gapsAlike {t s : Token} (gap gap' rest : List Token) (all : ∀ x ∈ t :: gap, x.kind.isGap = true)
    (all' : ∀ x ∈ s :: gap', x.kind.isGap = true) : AlikeAhead (t :: gap ++ rest) (s :: gap' ++ rest) where
  closing depth := by rw [closingGap rest all, closingGap rest all']
  annotation depth := by rw [annotationGap rest all, annotationGap rest all']
  follows := by
    have silent {x : Token} (isGap : x.kind.isGap = true) (ts : List Token) : leadsToArrow (x :: ts) = false := by
      rcases TokenKind.gapCases isGap with kind | kind <;> simp [leadsToArrow, kind]
    rw [List.cons_append, List.cons_append, silent (all t List.mem_cons_self), silent (all' s List.mem_cons_self)]

namespace Layout

theorem readAgrees {l : Layout} {ts u v : List Token} (agree : l.arrowsAgree ts u v = true) :
    l.read ts u = l.read ts v := by
  induction ts generalizing l with
  | nil => rfl
  | cons t ts ih =>
    simp only [arrowsAgree, Bool.and_eq_true, Bool.or_eq_true, Bool.not_eq_true', decide_eq_true_eq] at agree
    obtain ⟨here, later⟩ := agree
    have step : l.step t (ts ++ u) = l.step t (ts ++ v) :=
      stepSame fun asked => here.resolve_left (by simp [asked])
    simp only [read, ← step, ih later]

theorem runMoreBreaks (l : Layout) {brk : Token} {more : List Token} (rest : List Token)
    (newlines : ∀ b ∈ brk :: more, b.kind = .newline) : l.run (brk :: more ++ rest) = l.run (brk :: rest) := by
  have newline := newlines brk List.mem_cons_self
  simp only [List.cons_append, run, stepBreak _ newline]
  congr 1
  refine runBreaks _ rest ?_ fun b member => newlines b (List.mem_cons_of_mem brk member)
  split
  case isTrue => rfl
  case isFalse still => simpa using still

/-- The token that was written last counts by its kind alone. -/
theorem writeLast (l : Layout) {a b : Token} (same : a.kind = b.kind) (t : Token) (rest : List Token) :
    { l with last := some a }.write t rest = { l with last := some b }.write t rest := by
  have kinds : { l with last := some a }.lastKind = { l with last := some b }.lastKind := congrArg some same
  simp only [write, kinds]
  split
  case h_1 => split <;> rfl
  all_goals rfl

/-- The layout after a terminator made from `w`. -/
def endedBy (l : Layout) (w : Token) : Layout := l.wrote (w.become .terminator w.text)

theorem settleBreak {l : Layout} {kind : TokenKind} (brk : Token) (settled : l.pending = none)
    (ends : l.carriesOn kind = false) :
    { l with pending := some brk }.settle kind = ([brk.become .terminator brk.text], l.endedBy brk) := by
  have same : { l with pending := none } = l := by rw [← settled]
  simp only [carriesOn, Bool.or_eq_false_iff, Bool.and_eq_false_iff, Bool.not_eq_false'] at ends
  simp only [settle, same]
  rw [if_pos]
  · rfl
  · rcases ends.2 with stops | types
    · simp [stops]
    · simp [types]

/-- A line break that ends the statement before `t`, and another token made a terminator in its place: behind them the
same is written. -/
theorem runEnds {l : Layout} {t : Token} (brk semi : Token) (rest : List Token) (settled : l.pending = none)
    (ends : l.carriesOn t.kind = false) (unbroken : t.kind ≠ .newline) :
    { l with pending := some brk }.run (t :: rest) =
      brk.become .terminator brk.text :: (l.endedBy semi).run (t :: rest) := by
  have unended : t.kind ≠ .semicolon := by
    intro semicolon
    simp [carriesOn, semicolon] at ends
  have broken := settleBreak brk settled ends
  have quiet : (l.endedBy semi).settle t.kind = ([], l.endedBy semi) := by simp [settle, endedBy, wrote, settled]
  have alike : ({ l with pending := some brk }.poised t.kind).write t rest =
      ((l.endedBy semi).poised t.kind).write t rest := by
    simp only [poised, broken, quiet]
    have start : (l.endedBy brk).atStatementStart = (l.endedBy semi).atStatementStart := rfl
    rw [start]
    split
    · exact writeLast { l.endedBy brk with head := some t.kind } rfl t rest
    · exact writeLast (l.endedBy brk) rfl t rest
  simp only [run, stepWrites rest unbroken unended, broken, quiet, alike]
  rfl

end Layout

theorem afterBreaksSplit {ts : List Token} {t : Token} (found : afterBreaks ts = some t) :
    ∃ breaks rest, ts = breaks ++ t :: rest ∧ (∀ b ∈ breaks, b.kind = .newline) ∧ t.kind ≠ .newline := by
  obtain ⟨rest, split⟩ := List.head?_eq_some_iff.mp found
  refine ⟨ts.takeWhile (·.kind = .newline), rest, ?_, fun b member => ?_, ?_⟩
  · rw [← split, List.takeWhile_append_dropWhile]
  · simpa using List.mem_takeWhile_imp member
  · have stops := List.head?_dropWhile_not (fun b : Token => decide (b.kind = .newline)) ts
    rw [split] at stops
    simpa using stops

/-- A line break that is turned into a terminator, and a semicolon in its place. -/
theorem semicolonForBreak {before after : List Token} {brk semi : Token} (newline : brk.kind = .newline)
    (semicolon : semi.kind = .semicolon) (ends : EndsStatement (before ++ brk :: after) before.length) :
    ∃ front back, layOut (before ++ brk :: after) = front ++ brk.become .terminator brk.text :: back ∧
      layOut (before ++ semi :: after) = front ++ semi.become .terminator semi.text :: back := by
  obtain ⟨settled, breaks, next⟩ := (endsStatementIff before after newline).mp ends
  have alike : AlikeAhead (brk :: after) (semi :: after) :=
    gapsAlike [] [] after (by simp [newline, TokenKind.isGap]) (by simp [semicolon, TokenKind.isGap])
  have same := Layout.readAgrees (alike.arrowsAgree {} before)
  rcases reads : Layout.read {} before (brk :: after) with ⟨front, l⟩
  rw [reads] at same settled breaks next
  obtain ⟨t, found, carries⟩ := (Option.any_eq_true _ _).mp next
  obtain ⟨gap, rest, rfl, newlines, unbroken⟩ := afterBreaksSplit found
  have stops : l.carriesOn t.kind = false := by simpa using carries
  refine ⟨front, (l.endedBy semi).run (t :: rest), ?_, ?_⟩
  · have waits : (l.step brk (gap ++ t :: rest)) = ([], { l with pending := some brk }) := by
      rw [Layout.stepBreak _ newline, if_pos (by simpa using ⟨settled, breaks⟩)]
    rw [layOut, Layout.runAppend, reads, Layout.run, waits]
    simp only [List.nil_append]
    rw [Layout.runBreaks _ _ rfl newlines, Layout.runEnds brk semi rest settled stops unbroken]
  · have ended : l.step semi (gap ++ t :: rest) = ([semi.become .terminator semi.text], l.endedBy semi) := by
      simp only [Layout.step, semicolon, Layout.endedBy, ← settled]
    have quiet : (l.endedBy semi).breakEnds = false := by
      simp [Layout.breakEnds, Layout.endedBy, Layout.wrote, Layout.lastKind, Token.become, TokenKind.isTerminable]
    rw [layOut, Layout.runAppend, ← same, Layout.run, ended]
    simp only [List.singleton_append]
    rw [Layout.runBreaks _ _ (by simp [quiet]) newlines]

/-- Line breaks behind a line break are not seen, and neither is the difference between a semicolon and a line break
that is turned into a terminator. -/
theorem layoutEditsUnseen {before after : List Token} {brk : Token} (newline : brk.kind = .newline) :
    (∀ more, (∀ b ∈ more, b.kind = .newline) →
      layOut (before ++ brk :: (more ++ after)) = layOut (before ++ brk :: after)) ∧
    ∀ semi, semi.kind = .semicolon → EndsStatement (before ++ brk :: after) before.length →
      kinds (layOut (before ++ semi :: after)) = kinds (layOut (before ++ brk :: after)) ∧
      (layOut (before ++ semi :: after)).filter (·.kind ≠ .terminator) =
        (layOut (before ++ brk :: after)).filter (·.kind ≠ .terminator) := by
  constructor
  · intro more newlines
    have isGap {x : Token} (is : x.kind = .newline) : x.kind.isGap = true := by simp [is, TokenKind.isGap]
    have all : ∀ b ∈ brk :: more, b.kind = .newline := List.forall_mem_cons.mpr ⟨newline, newlines⟩
    have alike : AlikeAhead (brk :: (more ++ after)) (brk :: after) :=
      gapsAlike more [] after (fun b member => isGap (all b member)) (by simp [isGap newline])
    have same := Layout.readAgrees (alike.arrowsAgree {} before)
    rw [layOut, layOut, Layout.runAppend, Layout.runAppend, same]
    congr 1
    exact Layout.runMoreBreaks _ after all
  · intro semi semicolon ends
    obtain ⟨front, back, broken, ended⟩ := semicolonForBreak newline semicolon ends
    rw [broken, ended]
    simp [kinds, Token.become]

/-- The tokens of `(x) => {` and `a`. -/
def blockFront : List Token := [.leftParen, .name, .rightParen, .arrow, .leftBrace, .name].map bareToken

/-- The tokens of `b }`. -/
def blockBack : List Token := [.name, .rightBrace].map bareToken

/- In a function body the line break between `a` and `b` may be doubled, and be written as a semicolon. -/
theorem bodyBreakUnseen : (bareToken .newline).kind = .newline ∧ (bareToken .semicolon).kind = .semicolon ∧
    EndsStatement (blockFront ++ bareToken .newline :: blockBack) blockFront.length ∧
    layOut (blockFront ++ bareToken .newline :: ([bareToken .newline] ++ blockBack)) =
      layOut (blockFront ++ bareToken .newline :: blockBack) ∧
    kinds (layOut (blockFront ++ bareToken .semicolon :: blockBack)) =
      kinds (layOut (blockFront ++ bareToken .newline :: blockBack)) ∧
    (layOut (blockFront ++ bareToken .semicolon :: blockBack)).filter (·.kind ≠ .terminator) =
      (layOut (blockFront ++ bareToken .newline :: blockBack)).filter (·.kind ≠ .terminator) := by
  have ends : EndsStatement (blockFront ++ bareToken .newline :: blockBack) blockFront.length := by decide
  obtain ⟨more, replaced⟩ := @layoutEditsUnseen blockFront blockBack (bareToken .newline) rfl
  exact ⟨rfl, rfl, ends, more [bareToken .newline] (by simp [bareToken]), replaced (bareToken .semicolon) rfl ends⟩

end Fragment.Source
