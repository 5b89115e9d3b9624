import Fragment.Proofs.TokensKept

/-! What the terminators of the layout pass are made from.
Each written token is annotated with its origin. The annotation only adds to what is written; it tells the terminators of
semicolons, of line breaks and of closing braces apart, and says which line break a terminator stands for. -/
namespace Fragment.Source

/-- What a written token is made from. -/
inductive Origin where
  /-- A token of the lexer, as it is or marked. -/
  | token
  /-- The semicolon at this place among the tokens that are read. -/
  | semicolon (place : Nat)
  | lineBreak (place : Nat)
  /-- A closing brace or the end of the input, where a statement ends as well. -/
  | implied
  deriving DecidableEq

/-- A token that is written for what its origin says. -/
def Origin.Explains (ts : List Token) (w : Token) : Origin → Prop
  | .token => w.kind ≠ .terminator
  | .semicolon place => ∃ s, ts[place]? = some s ∧ s.kind = .semicolon ∧ w = s.become .terminator s.text
  | .lineBreak place => ∃ b, ts[place]? = some b ∧ b.kind = .newline ∧ w = b.become .terminator b.text
  | .implied => w.kind = .terminator ∧ w.text = ""

namespace Layout

/-- What is written for the token at `place`, with its origins; `broken` is the place of the pending line break. -/
def stepOrigins (l : Layout) (place broken : Nat) (t : Token) (rest : List Token) : List (Origin × Token) :=
  match t.kind with
  | .newline => []
  | .semicolon => (l.step t rest).1.map fun w => (.semicolon place, w)
  | kind => (l.settle kind).1.map (fun w => (.lineBreak broken, w)) ++
      ((l.poised kind).write t rest).1.map fun w => (if w.kind = .terminator then .implied else .token, w)

/-- The place of the pending line break, if there is one, after the token at `place`. -/
def brokenAt (l : Layout) (place broken : Nat) : Nat := if l.pending.isSome then broken else place

/-- The output for the tokens from `place` on, with its origins. -/
def runOrigins (l : Layout) (place broken : Nat) : List Token → List (Origin × Token)
  | [] => l.finish.map fun w => (.implied, w)
  | t :: rest => l.stepOrigins place broken t rest ++
      (l.step t rest).2.runOrigins (place + 1) (l.brokenAt place broken) rest

end Layout

/-- What the layout pass writes, with its origins. -/
def origins (ts : List Token) : List (Origin × Token) := Layout.runOrigins {} 0 0 ts

/-- Whether the line break at a place is turned into a terminator. -/
def EndsStatement (ts : List Token) (place : Nat) : Prop := .lineBreak place ∈ (origins ts).map Prod.fst

instance (ts : List Token) (place : Nat) : Decidable (EndsStatement ts place) :=
  inferInstanceAs (Decidable (_ ∈ _))

/-- The first token that is no line break. -/
def afterBreaks (ts : List Token) : Option Token := (ts.dropWhile (·.kind = .newline)).head?

namespace Layout

theorem stepOriginsBreak {l : Layout} {place broken : Nat} {t : Token} (rest : List Token) (newline : t.kind = .newline) :
    l.stepOrigins place broken t rest = [] := by
  simp only [stepOrigins, newline]

theorem stepOriginsEnd {l : Layout} {place broken : Nat} {t : Token} (rest : List Token)
    (semicolon : t.kind = .semicolon) :
    l.stepOrigins place broken t rest = [(.semicolon place, t.become .terminator t.text)] := by
  simp only [stepOrigins, step, semicolon, List.map_cons, List.map_nil]

theorem stepOriginsSolid {l : Layout} {place broken : Nat} {t : Token} (rest : List Token)
    (unbroken : t.kind ≠ .newline) (unended : t.kind ≠ .semicolon) : l.stepOrigins place broken t rest =
      (l.settle t.kind).1.map (fun w => (.lineBreak broken, w)) ++
        ((l.poised t.kind).write t rest).1.map fun w => (if w.kind = .terminator then .implied else .token, w) := by
  simp only [stepOrigins]

theorem stepOriginsTokens (l : Layout) (place broken : Nat) (t : Token) (rest : List Token) :
    (l.stepOrigins place broken t rest).map Prod.snd = (l.step t rest).1 := by
  by_cases newline : t.kind = .newline
  · simp [stepOriginsBreak rest newline, step, newline]
  by_cases semicolon : t.kind = .semicolon
  · simp [stepOriginsEnd rest semicolon, step, semicolon]
  · rw [stepOriginsSolid rest newline semicolon, stepWrites rest newline semicolon]
    simp [Function.comp_def]

theorem runOriginsTokens (l : Layout) (place broken : Nat) (ts : List Token) :
    (l.runOrigins place broken ts).map Prod.snd = l.run ts := by
  induction ts generalizing l place broken with
  | nil => simp [runOrigins, run, Function.comp_def]
  | cons t ts ih => simp only [runOrigins, run, List.map_append, stepOriginsTokens, ih]

theorem stepBreak {l : Layout} {brk : Token} (rest : List Token) (newline : brk.kind = .newline) :
    l.step brk rest = ([], if l.pending.isNone && l.breakEnds then { l with pending := some brk } else l) := by
  simp only [step, newline]

theorem writePending (l : Layout) (t : Token) (rest : List Token) : (l.write t rest).2.pending = l.pending := by
  unfold write
  split
  case h_1 =>
    dsimp only
    split <;> rfl
  all_goals rfl

/-- Only line breaks leave a line break pending. -/
theorem stepSettles {l : Layout} {t : Token} (rest : List Token) (unbroken : t.kind ≠ .newline) :
    (l.step t rest).2.pending = none := by
  by_cases semicolon : t.kind = .semicolon
  · simp only [step, semicolon]
    rfl
  · rw [stepWrites rest unbroken semicolon, writePending, poisedPending]

/-- What a step writes behind the pending terminator: the token, and before a brace perhaps a terminator of its own. -/
theorem writeShape (l : Layout) {t : Token} (rest : List Token) (raw : t.kind.isRaw = true) :
    ∃ w, w.kind ≠ .terminator ∧ ((l.write t rest).1 = [w] ∨
      (l.write t rest).1 = [t.become .terminator "", w] ∧ ∃ p ∈ l.last, p.kind ≠ .terminator) := by
  have solid : t.kind ≠ .terminator := (Token.WrittenAs.same raw).solid
  unfold write
  split
  case h_1 =>
    dsimp only
    split
    · exact ⟨t, solid, .inl rfl⟩
    · exact ⟨_, by simp [Token.become], .inl rfl⟩
  case h_2 =>
    refine ⟨_, ?_, .inl rfl⟩
    split
    · simp [Token.become]
    · exact solid
  case h_6 =>
    refine ⟨t, solid, ?_⟩
    dsimp only
    split
    case isTrue needed =>
      simp only [Bool.and_eq_true] at needed
      obtain ⟨k, found, stops⟩ := (Option.any_eq_true _ _).mp needed.2
      obtain ⟨p, last, rfl⟩ := Option.map_eq_some_iff.mp found
      exact .inr ⟨rfl, p, last, by simp_all⟩
    case isFalse => exact .inl rfl
  all_goals exact ⟨t, solid, .inl rfl⟩

/-- The pending line break of a layout is the token at a place. -/
def BreakAt (l : Layout) (ts : List Token) (place : Nat) : Prop :=
  ∀ b ∈ l.pending, ts[place]? = some b ∧ b.kind = .newline

theorem stepBreakAt {l : Layout} {ts : List Token} {place broken : Nat} {t : Token} (rest : List Token)
    (is : l.BreakAt ts broken) (here : ts[place]? = some t) :
    (l.step t rest).2.BreakAt ts (l.brokenAt place broken) := by
  by_cases newline : t.kind = .newline
  · rw [stepBreak rest newline]
    dsimp only
    split
    case isTrue ends =>
      have settled : l.pending = none := by simpa using (Bool.and_eq_true_iff.mp ends).1
      intro b waits
      cases waits
      exact ⟨by simpa [brokenAt, settled] using here, newline⟩
    case isFalse =>
      intro b waits
      have some : l.pending.isSome = true := Option.isSome_of_mem waits
      simpa [brokenAt, some] using is b waits
  · intro b waits
    rw [stepSettles rest newline] at waits
    cases waits

theorem settleShape (l : Layout) (kind : TokenKind) : (l.settle kind).1 = [] ∨
    ∃ brk ∈ l.pending, (l.settle kind).1 = [brk.become .terminator brk.text] := by
  cases pending : l.pending with
  | none => exact .inl (by simp [settle, pending])
  | some brk =>
    by_cases stays : (l.settle kind).1 = []
    · exact .inl stays
    · refine .inr ⟨brk, rfl, ?_⟩
      simp only [settle, pending] at stays ⊢
      split
      case isTrue => rfl
      case isFalse kept => exact absurd (by rw [if_neg kept]) stays

theorem stepExplained {l : Layout} {ts : List Token} {place broken : Nat} {t : Token} (rest : List Token)
    (is : l.BreakAt ts broken) (here : ts[place]? = some t) (raw : t.kind.isRaw = true) :
    ∀ x ∈ l.stepOrigins place broken t rest, x.1.Explains ts x.2 := by
  intro x member
  by_cases newline : t.kind = .newline
  · rw [stepOriginsBreak rest newline] at member
    cases member
  by_cases semicolon : t.kind = .semicolon
  · rw [stepOriginsEnd rest semicolon] at member
    cases List.mem_singleton.mp member
    exact ⟨t, here, semicolon, rfl⟩
  rw [stepOriginsSolid rest newline semicolon] at member
  rcases List.mem_append.mp member with before | own
  · obtain ⟨w, ended, rfl⟩ := List.mem_map.mp before
    obtain none | ⟨brk, pending, one⟩ := l.settleShape t.kind
    · simp [none] at ended
    · rw [one] at ended
      cases List.mem_singleton.mp ended
      obtain ⟨there, isBreak⟩ := is brk pending
      exact ⟨brk, there, isBreak, rfl⟩
  · obtain ⟨w, written, rfl⟩ := List.mem_map.mp own
    obtain ⟨v, solid, shape⟩ := (l.poised t.kind).writeShape rest raw
    have which : w = t.become .terminator "" ∨ w = v := by
      rcases shape with one | ⟨two, -⟩
      · exact .inr (by simpa [one] using written)
      · simpa [two] using written
    rcases which with rfl | rfl
    · exact ⟨rfl, rfl⟩
    · dsimp only
      rw [if_neg solid]
      exact solid

theorem runExplained {l : Layout} {ts : List Token} {place broken : Nat} {rest : List Token}
    (is : l.BreakAt ts broken) (here : ts.drop place = rest) (raw : ∀ t ∈ rest, t.kind.isRaw = true) :
    ∀ x ∈ l.runOrigins place broken rest, x.1.Explains ts x.2 := by
  induction rest generalizing l place broken with
  | nil =>
    intro x member
    obtain ⟨w, ended, rfl⟩ := List.mem_map.mp member
    unfold finish at ended
    split at ended
    case h_1 => cases ended
    case h_2 =>
      split at ended
      · cases List.mem_singleton.mp ended
        exact ⟨rfl, rfl⟩
      · cases ended
  | cons t rest ih =>
    have first : ts[place]? = some t := by simpa using congrArg List.head? here
    have later : ts.drop (place + 1) = rest := by simpa using congrArg List.tail here
    intro x member
    rcases List.mem_append.mp member with now | after
    · exact stepExplained rest is first (raw t List.mem_cons_self) x now
    · exact ih (stepBreakAt rest is first) later (fun u inside => raw u (List.mem_cons_of_mem t inside)) x after

/-- A pending line break is written before a token that does not carry on with the statement. -/
theorem settleWritesBreak (l : Layout) {kind : TokenKind} (unended : kind ≠ .semicolon) :
    (l.settle kind).1 ≠ [] ↔ l.pending.isSome = true ∧ l.carriesOn kind = false := by
  cases pending : l.pending with
  | none => simp [settle, pending]
  | some brk =>
    cases continues : kind.isContinuation <;>
      cases types : l.head.any TokenKind.isTypeStatement && kind.isTypeBreak <;>
        simp [settle, pending, carriesOn, unended, continues, types]

theorem stepTurns {l : Layout} {place broken n : Nat} {t : Token} {rest : List Token} :
    .lineBreak n ∈ (l.stepOrigins place broken t rest).map Prod.fst ↔
      n = broken ∧ t.kind ≠ .newline ∧ l.pending.isSome = true ∧ l.carriesOn t.kind = false := by
  by_cases newline : t.kind = .newline
  · simp [stepOriginsBreak rest newline, newline]
  by_cases semicolon : t.kind = .semicolon
  · simp [stepOriginsEnd rest semicolon, semicolon, carriesOn]
  have others : Origin.lineBreak n ∉ (((l.poised t.kind).write t rest).1.map fun w =>
      (if w.kind = .terminator then Origin.implied else .token, w)).map Prod.fst := by
    simp only [List.map_map, List.mem_map, Function.comp_apply, not_exists, not_and]
    intro w _
    split <;> simp
  rw [stepOriginsSolid rest newline semicolon, List.map_append, List.mem_append, or_iff_left others,
    ← settleWritesBreak l semicolon, List.map_map]
  constructor
  · intro member
    obtain ⟨w, written, same⟩ := List.mem_map.mp member
    exact ⟨(Origin.lineBreak.inj same).symm, newline, List.ne_nil_of_mem written⟩
  · rintro ⟨rfl, -, writes⟩
    obtain ⟨w, written⟩ := List.exists_mem_of_ne_nil _ writes
    exact List.mem_map.mpr ⟨w, written, rfl⟩

/-- A terminator of a line break belongs to the pending one or to one that is still to be read. -/
theorem runOriginsSince {l : Layout} {place broken n : Nat} {ts : List Token}
    (made : .lineBreak n ∈ (l.runOrigins place broken ts).map Prod.fst) :
    (n = broken ∧ l.pending.isSome = true) ∨ place ≤ n := by
  induction ts generalizing l place broken with
  | nil => simp [runOrigins] at made
  | cons t ts ih =>
    rw [runOrigins, List.map_append, List.mem_append, stepTurns] at made
    rcases made with ⟨same, -, pending, -⟩ | later
    · exact .inl ⟨same, pending⟩
    · rcases ih later with ⟨same, -⟩ | after
      · unfold brokenAt at same
        split at same
        · exact .inl ⟨same, by assumption⟩
        · exact .inr same.ge
      · exact .inr (Nat.le_of_succ_le after)

/-- A pending line break ends the statement unless the next token that is no line break carries on. -/
theorem pendingOrigins {l : Layout} {place broken : Nat} {ts : List Token} (pending : l.pending.isSome = true)
    (before : broken < place) : .lineBreak broken ∈ (l.runOrigins place broken ts).map Prod.fst ↔
      (afterBreaks ts).any (!l.carriesOn ·.kind) = true := by
  induction ts generalizing place with
  | nil => simp [runOrigins, afterBreaks]
  | cons t ts ih =>
    rw [runOrigins, List.map_append, List.mem_append, stepTurns]
    by_cases newline : t.kind = .newline
    · have kept : (l.step t ts).2 = l := by
        rw [Option.isSome_iff_ne_none] at pending
        simp [step, newline, pending]
      have same : l.brokenAt place broken = broken := by simp [brokenAt, pending]
      rw [kept, same, ih (Nat.lt_succ_of_lt before)]
      simp [newline, afterBreaks]
    · have settled : (l.step t ts).2.pending = none := stepSettles ts newline
      have fresh : .lineBreak broken ∉ ((l.step t ts).2.runOrigins (place + 1) (l.brokenAt place broken) ts).map Prod.fst := by
        intro made
        rcases runOriginsSince made with ⟨-, some⟩ | since
        · simp [settled] at some
        · omega
      rw [or_iff_left fresh]
      simp [afterBreaks, newline, pending]

/-- What becomes of a line break is decided by the layout before it and the first other token behind it. -/
theorem lineBreakOrigins {l : Layout} {place broken : Nat} (before after : List Token) {brk : Token}
    (newline : brk.kind = .newline) (past : l.pending.isSome = true → broken < place) :
    .lineBreak (place + before.length) ∈ (l.runOrigins place broken (before ++ brk :: after)).map Prod.fst ↔
      (l.read before (brk :: after)).2.pending = none ∧ (l.read before (brk :: after)).2.breakEnds = true ∧
        (afterBreaks after).any (!(l.read before (brk :: after)).2.carriesOn ·.kind) = true := by
  induction before generalizing l place broken with
  | nil =>
    have quiet : l.stepOrigins place broken brk after = [] := stepOriginsBreak after newline
    simp only [List.nil_append, List.length_nil, Nat.add_zero, runOrigins, quiet, read]
    by_cases ends : l.pending = none ∧ l.breakEnds = true
    · have waits : (l.step brk after).2 = { l with pending := some brk } := by
        rw [stepBreak after newline, if_pos (by simpa using ends)]
      have here : l.brokenAt place broken = place := by simp [brokenAt, ends]
      rw [waits, here, pendingOrigins rfl (Nat.lt_succ_self place)]
      simp only [ends, true_and]
      rfl
    · have kept : (l.step brk after).2 = l := by rw [stepBreak after newline, if_neg (by simpa using ends)]
      rw [kept, ← and_assoc, iff_false_right fun both => ends both.1]
      intro made
      rcases runOriginsSince made with ⟨same, some⟩ | since
      · have := past some
        unfold brokenAt at same
        rw [if_pos some] at same
        omega
      · omega
  | cons t before ih =>
    have elsewhere : .lineBreak (place + (t :: before).length) ∉
        (l.stepOrigins place broken t (before ++ brk :: after)).map Prod.fst := by
      intro made
      obtain ⟨same, -, pending, -⟩ := stepTurns.mp made
      have := past pending
      rw [List.length_cons] at same
      omega
    have next : (l.step t (before ++ brk :: after)).2.pending.isSome = true → l.brokenAt place broken < place + 1 := by
      intro _
      unfold brokenAt
      split
      case isTrue pending => exact Nat.lt_succ_of_lt (past pending)
      case isFalse => exact Nat.lt_succ_self place
    rw [List.cons_append, runOrigins, List.map_append, List.mem_append, or_iff_right elsewhere,
      show place + (t :: before).length = place + 1 + before.length by rw [List.length_cons]; omega, ih next]
    rfl

end Layout

theorem originsTokens (ts : List Token) : (origins ts).map Prod.snd = layOut ts := Layout.runOriginsTokens {} 0 0 ts

theorem originsExplained {ts : List Token} (raw : ∀ t ∈ ts, t.kind.isRaw = true) :
    ∀ x ∈ origins ts, x.1.Explains ts x.2 := Layout.runExplained nofun List.drop_zero raw

theorem endsStatementIff (before after : List Token) {brk : Token} (newline : brk.kind = .newline) :
    EndsStatement (before ++ brk :: after) before.length ↔
      (Layout.read {} before (brk :: after)).2.pending = none ∧
        (Layout.read {} before (brk :: after)).2.breakEnds = true ∧
        (afterBreaks after).any (!(Layout.read {} before (brk :: after)).2.carriesOn ·.kind) = true := by
  have settled : ({} : Layout).pending.isSome = true → 0 < 0 := nofun
  have here := Layout.lineBreakOrigins before after newline settled
  rw [Nat.zero_add] at here
  exact here

end Fragment.Source
