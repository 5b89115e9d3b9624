import Fragment.Proofs.TerminatorOrigins

/-! Where terminators stand.
The layout of the pass is what its output says: the brackets open in the output, its last token, and whether that closed a
block. This holds after every token, balanced or not, so each terminator can be judged by the output before it. -/
namespace Fragment.Source

/-- The brackets open after tokens of these kinds, the last kind first; each closing bracket closes the innermost one. -/
def unclosed : List TokenKind → List Bracket
  | [] => []
  | k :: before =>
    match k with
    | .leftParen | .arrowParen => .paren :: unclosed before
    | .leftBracket => .square :: unclosed before
    | .leftBrace => .object :: unclosed before
    | .blockBrace => (if before.head? = some .arrow then .body else .block) :: unclosed before
    | .rightParen | .rightBracket | .rightBrace => (unclosed before).tail
    | _ => unclosed before

/-- The brackets open after some written tokens, innermost first. -/
def openBrackets (ts : List Token) : List Bracket := unclosed (kinds ts).reverse

/-- Whether a token written behind `front` is a brace that closes a block, or one that closes nothing. -/
def ClosesBlock (front : List Token) (w : Token) : Prop :=
  w.kind = .rightBrace ∧ (openBrackets front).head?.all (· = .block) = true

/-- A layout that remembers what it should of the tokens written. -/
structure Layout.Follows (l : Layout) (written : List Token) : Prop where
  last : l.last = written.getLast?
  opened : l.opened = openBrackets written
  closed : l.closedBlock = true ↔ ∃ front w, written = front ++ [w] ∧ ClosesBlock front w
  pending : l.pending.isSome = true → l.breakEnds = true

theorem openBracketsSnoc (ts : List Token) (w : Token) :
    openBrackets (ts ++ [w]) = unclosed (w.kind :: (kinds ts).reverse) := by
  simp [openBrackets, kinds]

theorem closesBlockSnoc {ts : List Token} {w : Token} :
    (∃ front v, ts ++ [w] = front ++ [v] ∧ ClosesBlock front v) ↔ ClosesBlock ts w := by
  constructor
  · rintro ⟨front, v, same, closes⟩
    obtain ⟨rfl, one⟩ := List.append_inj' same rfl
    cases one
    exact closes
  · exact fun closes => ⟨ts, w, rfl, closes⟩

theorem TokenKind.rawUnmarked {k : TokenKind} (raw : k.isRaw = true) : k ≠ .blockBrace ∧ k ≠ .arrowParen := by
  constructor <;> rintro rfl <;> cases raw

namespace Layout

variable {l : Layout} {written : List Token}

theorem Follows.empty : ({} : Layout).Follows [] where
  last := rfl
  opened := rfl
  closed := by simp
  pending := nofun

theorem followsWrote (settled : l.pending = none) {w : Token} {opened : List Bracket}
    (brackets : opened = openBrackets (written ++ [w])) (other : w.kind ≠ .rightBrace) :
    ({ l with opened }.wrote w).Follows (written ++ [w]) where
  last := by simp [wrote]
  opened := brackets
  closed := by
    rw [closesBlockSnoc]
    simp [wrote, ClosesBlock, other]
  pending some := by simp [wrote, settled] at some

theorem Follows.terminated (follows : l.Follows written) (settled : l.pending = none) (w : Token) (text : String) :
    (l.wrote (w.become .terminator text)).Follows (written ++ [w.become .terminator text]) := by
  refine followsWrote settled ?_ (by simp [Token.become])
  rw [openBracketsSnoc, follows.opened]
  rfl

theorem Follows.forgetBreak (follows : l.Follows written) : { l with pending := none }.Follows written :=
  ⟨follows.last, follows.opened, follows.closed, nofun⟩

theorem Follows.settled (follows : l.Follows written) (kind : TokenKind) :
    (l.settle kind).2.Follows (written ++ (l.settle kind).1) := by
  unfold settle
  split
  · simpa using follows
  · dsimp only
    split
    · exact follows.forgetBreak.terminated rfl _ _
    · simpa using follows.forgetBreak

theorem Follows.poised (follows : l.Follows written) (kind : TokenKind) :
    (l.poised kind).Follows (written ++ (l.settle kind).1) := by
  have settled := follows.settled kind
  unfold Layout.poised
  dsimp only
  split
  · exact ⟨settled.last, settled.opened, settled.closed, settled.pending⟩
  · exact settled

theorem Follows.lastKind (follows : l.Follows written) : l.lastKind = (kinds written).reverse.head? := by
  simp [Layout.lastKind, follows.last, kinds]

/-- A closing brace, behind the terminator of its statement if there is one. -/
theorem Follows.closes (follows : l.Follows written) (settled : l.pending = none) {t : Token}
    (brace : t.kind = .rightBrace) :
    { ({ l with opened := l.opened.tail }.wrote t) with
      closedBlock := l.opened.head?.getD .block = Bracket.block }.Follows (written ++ [t]) where
  last := by simp [wrote]
  opened := by
    rw [openBracketsSnoc, brace, follows.opened]
    rfl
  closed := by
    rw [closesBlockSnoc, ClosesBlock, ← follows.opened]
    cases l.opened.head? <;> simp [brace]
  pending some := by simp [wrote, settled] at some

theorem Follows.writes (follows : l.Follows written) (settled : l.pending = none) {t : Token} (rest : List Token)
    (raw : t.kind.isRaw = true) : (l.write t rest).2.Follows (written ++ (l.write t rest).1) := by
  unfold write
  split
  case h_1 brace =>
    dsimp only
    split
    · refine followsWrote settled ?_ (by simp [brace])
      rw [openBracketsSnoc, follows.opened, brace]
      rfl
    · refine followsWrote settled ?_ (by simp [Token.become])
      rw [openBracketsSnoc, follows.opened, follows.lastKind]
      rfl
  case h_2 paren =>
    refine followsWrote settled ?_ ?_
    · rw [openBracketsSnoc, follows.opened]
      split <;> simp [Token.become, paren, unclosed, openBrackets]
    · split <;> simp [Token.become, paren]
  case h_3 bracket =>
    refine followsWrote settled ?_ (by simp [bracket])
    rw [openBracketsSnoc, follows.opened, bracket]
    rfl
  case h_4 paren =>
    refine followsWrote settled ?_ (by simp [paren])
    rw [openBracketsSnoc, follows.opened, paren]
    rfl
  case h_5 bracket =>
    refine followsWrote settled ?_ (by simp [bracket])
    rw [openBracketsSnoc, follows.opened, bracket]
    rfl
  case h_6 brace =>
    dsimp only
    split
    · have ended := follows.terminated settled t ""
      rw [← List.append_assoc]
      exact ended.closes settled brace
    · exact follows.closes settled brace
  case h_7 =>
    refine followsWrote settled ?_ (by assumption)
    obtain ⟨unmarked, plain⟩ := TokenKind.rawUnmarked raw
    rw [openBracketsSnoc, follows.opened, unclosed]
    · rfl
    all_goals assumption

theorem Follows.steps (follows : l.Follows written) {t : Token} (rest : List Token)
    (raw : t.kind.isRaw = true) : (l.step t rest).2.Follows (written ++ (l.step t rest).1) := by
  by_cases newline : t.kind = .newline
  · rw [stepBreak rest newline, List.append_nil]
    dsimp only
    split
    case isTrue ends =>
      exact ⟨follows.last, follows.opened, follows.closed, fun _ => (Bool.and_eq_true_iff.mp ends).2⟩
    case isFalse => exact follows
  by_cases semicolon : t.kind = .semicolon
  · simp only [step, semicolon]
    exact follows.forgetBreak.terminated rfl t t.text
  · rw [stepWrites rest newline semicolon, ← List.append_assoc]
    exact (follows.poised t.kind).writes (poisedPending l t.kind) rest raw

end Layout

/-- Where a written token may stand by its origin, behind the tokens `front`. -/
structure Placed (front : List Token) (o : Origin) (w : Token) : Prop where
  /-- Only semicolons give terminators at the start and behind terminators. -/
  apart : w.kind = .terminator → (∀ place, o ≠ .semicolon place) → ∃ p ∈ front.getLast?, p.kind ≠ .terminator
  /-- Line breaks end statements only where statements stand, behind what can end one. -/
  among : ∀ place, o = .lineBreak place → (openBrackets front).head?.all Bracket.holdsStatements = true ∧
    ∃ p ∈ front.getLast?, p.kind.isTerminable = true ∨ p.kind = .rightBrace

/-- Tokens written one after the other behind `front`, each where it may stand. -/
def AllPlaced : List Token → List (Origin × Token) → Prop
  | _, [] => True
  | front, (o, w) :: rest => Placed front o w ∧ AllPlaced (front ++ [w]) rest

theorem allPlacedAppend {front : List Token} {a b : List (Origin × Token)} :
    AllPlaced front (a ++ b) ↔ AllPlaced front a ∧ AllPlaced (front ++ a.map Prod.snd) b := by
  induction a generalizing front with
  | nil => simp [AllPlaced]
  | cons x a ih => simp [AllPlaced, ih, and_assoc]

namespace Layout

variable {l : Layout} {written : List Token}

/-- A token of the lexer is no terminator. -/
theorem placedToken {w : Token} (front : List Token) (solid : w.kind ≠ .terminator) : Placed front .token w :=
  ⟨fun ended => absurd ended solid, nofun⟩

theorem placedImplied {front : List Token} {p : Token} (w : Token) (last : front.getLast? = some p)
    (solid : p.kind ≠ .terminator) : Placed front .implied w :=
  ⟨fun _ _ => ⟨p, last, solid⟩, nofun⟩

/- The break became pending where statements stand, behind a token that can end one, and nothing was written since. -/
theorem Follows.placesBreak (follows : l.Follows written) (pending : l.pending.isSome = true) (place : Nat) (w : Token) :
    Placed written (.lineBreak place) w := by
  have ends := follows.pending pending
  simp only [breakEnds, Bool.and_eq_true] at ends
  obtain ⟨k, found, stops⟩ := (Option.any_eq_true _ _).mp ends.2
  obtain ⟨p, last, rfl⟩ := Option.map_eq_some_iff.mp found
  have stops : p.kind.isTerminable = true ∨ p.kind = .rightBrace := by simpa using stops
  have last : p ∈ written.getLast? := follows.last ▸ last
  refine ⟨fun _ _ => ⟨p, last, ?_⟩, fun _ _ => ⟨?_, p, last, stops⟩⟩
  · rintro ended
    simp [ended, TokenKind.isTerminable] at stops
  · have among := ends.1.1
    rwa [amongStatements, follows.opened] at among

theorem Follows.placesWrite (follows : l.Follows written) {t : Token} (rest : List Token) (raw : t.kind.isRaw = true) :
    AllPlaced written ((l.write t rest).1.map fun w => (if w.kind = .terminator then .implied else .token, w)) := by
  obtain ⟨w, solid, one | ⟨two, p, last, open_⟩⟩ := l.writeShape rest raw
  · simp [one, AllPlaced, solid, placedToken]
  · have placed := placedImplied (t.become .terminator "") (follows.last ▸ last) open_
    simp [two, AllPlaced, solid, placedToken, Token.become] at placed ⊢
    exact placed

theorem Follows.placesStep (follows : l.Follows written) (place broken : Nat) {t : Token} (rest : List Token)
    (raw : t.kind.isRaw = true) : AllPlaced written (l.stepOrigins place broken t rest) := by
  by_cases newline : t.kind = .newline
  · rw [stepOriginsBreak rest newline]
    trivial
  by_cases semicolon : t.kind = .semicolon
  · rw [stepOriginsEnd rest semicolon]
    exact ⟨⟨fun _ other => absurd rfl (other place), nofun⟩, trivial⟩
  rw [stepOriginsSolid rest newline semicolon]
  refine allPlacedAppend.mpr ⟨?_, ?_⟩
  · obtain none | ⟨brk, pending, one⟩ := l.settleShape t.kind
    · rw [none]
      trivial
    · rw [one]
      exact ⟨follows.placesBreak (Option.isSome_of_mem pending) broken _, trivial⟩
  · simpa [Function.comp_def] using (follows.poised t.kind).placesWrite rest raw

theorem Follows.placesRun (follows : l.Follows written) (place broken : Nat) {ts : List Token}
    (raw : ∀ t ∈ ts, t.kind.isRaw = true) : AllPlaced written (l.runOrigins place broken ts) := by
  induction ts generalizing l written place broken with
  | nil =>
    unfold runOrigins finish
    split
    case h_1 => trivial
    case h_2 p last =>
      split
      case isTrue needed => exact ⟨placedImplied _ (follows.last ▸ last) (by simp_all), trivial⟩
      case isFalse => trivial
  | cons t ts ih =>
    have step := raw t List.mem_cons_self
    refine allPlacedAppend.mpr ⟨follows.placesStep place broken ts step, ?_⟩
    rw [stepOriginsTokens]
    exact ih (follows.steps ts step) _ _ fun u member => raw u (List.mem_cons_of_mem t member)

/-- The output ends with a terminator, or with a brace behind which none is needed. -/
theorem Follows.endsRun (follows : l.Follows written) {ts : List Token} (raw : ∀ t ∈ ts, t.kind.isRaw = true)
    (filled : written ++ l.run ts ≠ []) : ∃ front w, written ++ l.run ts = front ++ [w] ∧
      (w.kind = .terminator ∨ ClosesBlock front w) := by
  induction ts generalizing l written with
  | nil =>
    cases last : l.last with
    | none =>
      have empty : written = [] := by simpa [follows.last] using last
      simp [run, finish, last, empty] at filled
    | some p =>
      obtain ⟨front, split⟩ := List.getLast?_eq_some_iff.mp (follows.last ▸ last)
      simp only [run, finish, last]
      split
      case isTrue => exact ⟨written, _, rfl, .inl rfl⟩
      case isFalse unneeded =>
        rw [List.append_nil]
        by_cases closed : l.closedBlock = true
        · obtain ⟨front, w, split, closes⟩ := follows.closed.mp closed
          exact ⟨front, w, split, .inr closes⟩
        · exact ⟨front, p, split, .inl (by simpa [closed] using unneeded)⟩
  | cons t ts ih =>
    rw [run, ← List.append_assoc] at filled ⊢
    exact ih (follows.steps ts (raw t List.mem_cons_self)) (fun u member => raw u (List.mem_cons_of_mem t member)) filled

end Layout

theorem terminatorsPlaced {ts : List Token} (raw : ∀ t ∈ ts, t.kind.isRaw = true) :
    (origins ts).map Prod.snd = layOut ts ∧ (∀ x ∈ origins ts, x.1.Explains ts x.2) ∧
    (∀ front o w back, origins ts = front ++ (o, w) :: back → w.kind = .terminator → (∀ place, o ≠ .semicolon place) →
      ∃ p ∈ front.getLast?, p.2.kind ≠ .terminator) ∧
    (∀ front place w back, origins ts = front ++ (.lineBreak place, w) :: back →
      (openBrackets (front.map Prod.snd)).head?.all Bracket.holdsStatements = true ∧
        ∃ p ∈ front.getLast?, p.2.kind.isTerminable = true ∨ p.2.kind = .rightBrace) ∧
    (layOut ts ≠ [] → ∃ front w, layOut ts = front ++ [w] ∧ (w.kind = .terminator ∨ ClosesBlock front w)) := by
  have all : AllPlaced [] (origins ts) := Layout.Follows.empty.placesRun 0 0 raw
  have placed {front back : List (Origin × Token)} {o : Origin} {w : Token}
      (split : origins ts = front ++ (o, w) :: back) : Placed (front.map Prod.snd) o w := by
    rw [split, allPlacedAppend] at all
    exact all.2.1
  have last {front : List (Origin × Token)} {P : Token → Prop} (found : ∃ p ∈ (front.map Prod.snd).getLast?, P p) :
      ∃ p ∈ front.getLast?, P p.2 := by
    obtain ⟨p, ends, holds⟩ := found
    rw [List.getLast?_map] at ends
    obtain ⟨x, is, rfl⟩ := Option.map_eq_some_iff.mp ends
    exact ⟨x, is, holds⟩
  refine ⟨originsTokens ts, originsExplained raw, ?_, ?_, ?_⟩
  · intro front o w back split ended other
    exact last ((placed split).apart ended other)
  · intro front place w back split
    obtain ⟨among, stops⟩ := (placed split).among place rfl
    exact ⟨among, last stops⟩
  · exact Layout.Follows.empty.endsRun raw

/-- The tokens of `if (c) {`, a line break, `f()`, a line break, and `}`. -/
def guardedCall : List Token :=
  [.ifWord, .leftParen, .name, .rightParen, .leftBrace, .newline, .name, .leftParen, .rightParen, .newline,
    .rightBrace].map bareToken

/- The second line break ends the call inside the block, and the brace that closes the block ends the output. -/
theorem guardedCallPlaced : (∀ t ∈ guardedCall, t.kind.isRaw = true) ∧
    (∃ front w back, origins guardedCall = front ++ (.lineBreak 9, w) :: back ∧ w.kind = .terminator ∧
      (∃ p ∈ front.getLast?, p.2.kind ≠ .terminator) ∧
      (openBrackets (front.map Prod.snd)).head?.all Bracket.holdsStatements = true ∧
      ∃ p ∈ front.getLast?, p.2.kind.isTerminable = true ∨ p.2.kind = .rightBrace) ∧
    ∃ front w, layOut guardedCall = front ++ [w] ∧ (w.kind = .terminator ∨ ClosesBlock front w) := by
  have raw : ∀ t ∈ guardedCall, t.kind.isRaw = true := by decide
  obtain ⟨-, explained, apart, among, ends⟩ := terminatorsPlaced raw
  have member : .lineBreak 9 ∈ (origins guardedCall).map Prod.fst := by decide
  obtain ⟨⟨_, w⟩, inside, rfl⟩ := List.mem_map.mp member
  obtain ⟨front, back, split⟩ := List.mem_iff_append.mp inside
  have ended : w.kind = .terminator := by
    obtain ⟨b, -, -, rfl⟩ := explained _ inside
    rfl
  exact ⟨raw, ⟨front, w, back, split, ended, apart front _ w back split ended nofun, among front 9 w back split⟩,
    ends (by decide)⟩

/- A brace that closes nothing may end the output as well. -/
theorem unopenedBraceEndsOutput : ¬∀ ts : List Token, (∀ t ∈ ts, t.kind.isRaw = true) → layOut ts ≠ [] →
    ∃ front w, layOut ts = front ++ [w] ∧
      (w.kind = .terminator ∨ w.kind = .rightBrace ∧ (openBrackets front).head? = some .block) := by
  intro closes
  obtain ⟨front, w, written, last⟩ := closes [bareToken .rightBrace] (by decide) (by decide)
  obtain ⟨rfl, one⟩ := List.append_inj' (show [] ++ [bareToken .rightBrace] = front ++ [w] from written) rfl
  cases one
  simp [bareToken, openBrackets, kinds, unclosed] at last

end Fragment.Source
