import Fragment.Proofs.LineBreak
import Mathlib.Data.List.DropRight

/-! The layout pass neither loses nor invents tokens, terminators apart.
What it writes for a token is the token, perhaps marked as a block brace or an arrow parenthesis, and
terminators before it. Between two neighbouring tokens with semicolons between them stand the
terminators of these semicolons and no others. -/
namespace Fragment.Source

/-- Kinds that the lexer gives: the layout pass alone writes the others. -/
def TokenKind.isRaw : TokenKind → Bool
  | .terminator | .blockBrace | .arrowParen => false
  | _ => true

/-- Kinds of which the layout pass makes terminators, if anything. -/
def TokenKind.isGap : TokenKind → Bool
  | .newline | .semicolon => true
  | _ => false

/-- The token without the mark of the layout pass. -/
def Token.unmarked (t : Token) : Token :=
  match t.kind with
  | .blockBrace => t.become .leftBrace t.text
  | .arrowParen => t.become .leftParen t.text
  | _ => t

/-- Written tokens without terminators and marks. -/
def unmarked (ts : List Token) : List Token := (ts.filter (·.kind ≠ .terminator)).map Token.unmarked

/-- Tokens of the lexer without line breaks and semicolons. -/
def solid (ts : List Token) : List Token := ts.filter (!·.kind.isGap)

/-- The terminators of the semicolons among some tokens. -/
def ends (ts : List Token) : List Token :=
  (ts.filter (·.kind = .semicolon)).map fun s => s.become .terminator s.text

theorem unmarkedAppend (a b : List Token) : unmarked (a ++ b) = unmarked a ++ unmarked b := by
  simp [unmarked]

theorem solidAppend (a b : List Token) : solid (a ++ b) = solid a ++ solid b := by simp [solid]

theorem solidGap {gap : List Token} (all : ∀ t ∈ gap, t.kind.isGap = true) : solid gap = [] := by
  rw [solid, List.filter_eq_nil_iff]
  intro t member
  simp [all t member]

theorem unmarkedTerminators {ended : List Token} (all : ∀ e ∈ ended, e.kind = .terminator) :
    unmarked ended = [] := by
  rw [unmarked, List.map_eq_nil_iff, List.filter_eq_nil_iff]
  intro e member
  simp [all e member]

theorem unmarkedEnds (gap : List Token) : unmarked (ends gap) = [] := by
  refine unmarkedTerminators fun e member => ?_
  obtain ⟨s, -, rfl⟩ := List.mem_map.mp member
  rfl

theorem TokenKind.solidRaw {k : TokenKind} (gap : k.isGap = false) : k ≠ .newline ∧ k ≠ .semicolon := by
  constructor <;> rintro rfl <;> cases gap

/-- What is written for a token that is no line break and no semicolon: itself, perhaps marked, behind
terminators. -/
structure Token.WrittenAs (t : Token) (ended : List Token) (w : Token) : Prop where
  terminators : ∀ e ∈ ended, e.kind = .terminator
  unmarked : w.unmarked = t
  solid : w.kind ≠ .terminator

theorem Token.WrittenAs.same {t : Token} (raw : t.kind.isRaw = true) : t.WrittenAs [] t := by
  refine ⟨by simp, ?_, ?_⟩
  · unfold Token.unmarked
    split <;> simp_all [TokenKind.isRaw]
  · intro ended
    simp [ended, TokenKind.isRaw] at raw

theorem Token.WrittenAs.unmarkedAll {t w : Token} {ended : List Token} (written : t.WrittenAs ended w) :
    Source.unmarked (ended ++ [w]) = [t] := by
  rw [unmarkedAppend, unmarkedTerminators written.terminators]
  simp [Source.unmarked, written.solid, written.unmarked]

namespace Layout

/-- The last token written ended a statement, and no line break is pending. -/
structure Ended (l : Layout) : Prop where
  last : l.lastKind = some .terminator
  plain : l.closedBlock = false
  settled : l.pending = none

theorem writeWrites {l : Layout} {t : Token} (rest : List Token) (raw : t.kind.isRaw = true) :
    ∃ ended w, (l.write t rest).1 = ended ++ [w] ∧ t.WrittenAs ended w ∧
      (l.lastKind = some .terminator → ended = []) := by
  have same := Token.WrittenAs.same raw
  unfold write
  split <;> rename_i kind
  · dsimp only
    split
    · exact ⟨[], t, rfl, same, fun _ => rfl⟩
    · refine ⟨[], _, rfl, ⟨by simp, ?_, by simp [Token.become]⟩, fun _ => rfl⟩
      simp [Token.unmarked, Token.become, ← kind]
  · dsimp only
    split
    · refine ⟨[], _, rfl, ⟨by simp, ?_, by simp [Token.become]⟩, fun _ => rfl⟩
      simp [Token.unmarked, Token.become, ← kind]
    · exact ⟨[], t, rfl, same, fun _ => rfl⟩
  · exact ⟨[], t, rfl, same, fun _ => rfl⟩
  · exact ⟨[], t, rfl, same, fun _ => rfl⟩
  · exact ⟨[], t, rfl, same, fun _ => rfl⟩
  · refine ⟨_, t, rfl, ⟨fun e member => ?_, same.unmarked, same.solid⟩, fun ended => by simp [ended]⟩
    split at member
    · cases List.mem_singleton.mp member
      rfl
    · cases member
  · exact ⟨[], t, rfl, same, fun _ => rfl⟩

theorem settleWrites (l : Layout) (kind : TokenKind) :
    (∀ e ∈ (l.settle kind).1, e.kind = .terminator) ∧
      (l.Ended → (l.settle kind).1 = [] ∧ (l.settle kind).2.lastKind = some .terminator) := by
  constructor
  · intro e member
    unfold settle at member
    split at member
    · cases member
    · dsimp only at member
      split at member
      · cases List.mem_singleton.mp member
        rfl
      · cases member
  · intro ended
    simp [settle, ended.settled, ended.last]

theorem stepWritesSolid {l : Layout} {t : Token} (rest : List Token) (raw : t.kind.isRaw = true)
    (gap : t.kind.isGap = false) :
    ∃ ended w, (l.step t rest).1 = ended ++ [w] ∧ t.WrittenAs ended w ∧ (l.Ended → ended = []) := by
  obtain ⟨unbroken, unended⟩ := TokenKind.solidRaw gap
  obtain ⟨ended, w, wrote, written, follows⟩ := writeWrites (l := l.poised t.kind) rest raw
  obtain ⟨terminators, quiet⟩ := settleWrites l t.kind
  refine ⟨(l.settle t.kind).1 ++ ended, w, ?_, ⟨fun e member => ?_, written.unmarked, written.solid⟩, fun done => ?_⟩
  · rw [stepWrites rest unbroken unended, wrote, List.append_assoc]
  · exact (List.mem_append.mp member).elim (terminators e) (written.terminators e)
  · rw [(quiet done).1, follows (by rw [poisedLast, (quiet done).2]), List.append_nil]

/- Whatever the layout, a line break writes nothing and a semicolon its terminator. -/
theorem stepWritesGap {l : Layout} {t : Token} (rest : List Token) (gap : t.kind.isGap = true) :
    (l.step t rest).1 = ends [t] := by
  unfold step
  split <;> rename_i kind
  · simp [ends, kind]
  · simp [ends, kind]
  · simp_all [TokenKind.isGap]

theorem runAppend (l : Layout) (ts rest : List Token) :
    l.run (ts ++ rest) = (l.read ts rest).1 ++ (l.read ts rest).2.run rest := by
  induction ts generalizing l with
  | nil => rfl
  | cons t ts ih =>
    simp only [List.cons_append, run, read, List.append_assoc]
    rw [ih]

theorem readWritten (l : Layout) (a b rest : List Token) :
    (l.read (a ++ b) rest).1 = (l.read a (b ++ rest)).1 ++ ((l.read a (b ++ rest)).2.read b rest).1 := by
  induction a generalizing l with
  | nil => rfl
  | cons t a ih =>
    simp only [List.cons_append, read, List.append_assoc]
    rw [ih]

theorem readKeeps {ts : List Token} (l : Layout) (rest : List Token) (raw : ∀ t ∈ ts, t.kind.isRaw = true) :
    unmarked (l.read ts rest).1 = solid ts := by
  induction ts generalizing l with
  | nil => rfl
  | cons t ts ih =>
    have later := ih (l.step t (ts ++ rest)).2 fun u member => raw u (List.mem_cons_of_mem t member)
    have now : unmarked (l.step t (ts ++ rest)).1 = solid [t] := by
      cases gap : t.kind.isGap with
      | true => rw [stepWritesGap _ gap, unmarkedEnds, solidGap (by simpa using gap)]
      | false =>
        obtain ⟨ended, w, wrote, written, -⟩ := stepWritesSolid (l := l) (ts ++ rest) (raw t List.mem_cons_self) gap
        rw [wrote, written.unmarkedAll]
        simp [solid, gap]
    rw [show t :: ts = [t] ++ ts from rfl, solidAppend, ← now, ← later, ← unmarkedAppend]
    rfl

theorem finishTerminates (l : Layout) : ∀ e ∈ l.finish, e.kind = .terminator := by
  intro e member
  unfold finish at member
  split at member
  · cases member
  · split at member
    · cases List.mem_singleton.mp member
      rfl
    · cases member

theorem runKeeps {ts : List Token} (l : Layout) (raw : ∀ t ∈ ts, t.kind.isRaw = true) :
    unmarked (l.run ts) = solid ts := by
  have all := l.runAppend ts []
  rw [List.append_nil] at all
  rw [all, unmarkedAppend, readKeeps l [] raw]
  simp [run, unmarkedTerminators (finishTerminates _)]

theorem readGap {gap : List Token} (l : Layout) (rest : List Token) (all : ∀ t ∈ gap, t.kind.isGap = true) :
    (l.read gap rest).1 = ends gap := by
  induction gap generalizing l with
  | nil => rfl
  | cons t gap ih =>
    have later := ih (l.step t (gap ++ rest)).2 fun u member => all u (List.mem_cons_of_mem t member)
    simp only [read, stepWritesGap _ (all t List.mem_cons_self), later]
    simp only [ends, ← List.map_append, ← List.filter_append]
    rfl

theorem stepEnds {l : Layout} {s : Token} (rest : List Token) (semicolon : s.kind = .semicolon) :
    (l.step s rest).2.Ended := by
  simp only [step, semicolon]
  exact ⟨rfl, rfl, rfl⟩

/- After a semicolon, line breaks change nothing. -/
theorem readEnded {gap : List Token} {l : Layout} (rest : List Token) (ended : l.Ended)
    (all : ∀ t ∈ gap, t.kind.isGap = true) : (l.read gap rest).2.Ended := by
  induction gap generalizing l with
  | nil => exact ended
  | cons t gap ih =>
    have isGap := all t List.mem_cons_self
    have next : (l.step t (gap ++ rest)).2.Ended := by
      cases kind : t.kind with
      | semicolon => exact stepEnds _ kind
      | newline =>
        have unending : l.breakEnds = false := by simp [breakEnds, ended.last, TokenKind.isTerminable]
        simpa [step, kind, unending] using ended
      | _ => simp [kind, TokenKind.isGap] at isGap
    exact ih next fun u member => all u (List.mem_cons_of_mem t member)

theorem runEnded {l : Layout} {ts : List Token} (ended : l.Ended) (raw : ∀ t ∈ ts, t.kind.isRaw = true)
    (solidFirst : ∀ t ∈ ts.head?, t.kind.isGap = false) : ∀ w ∈ (l.run ts).head?, w.kind ≠ .terminator := by
  cases ts with
  | nil =>
    have last := ended.last
    unfold lastKind at last
    obtain ⟨t, found, kind⟩ := Option.map_eq_some_iff.mp last
    simp [run, finish, found, kind]
  | cons t ts =>
    obtain ⟨_, w, wrote, written, none⟩ :=
      stepWritesSolid (l := l) ts (raw t List.mem_cons_self) (solidFirst t rfl)
    simp only [run, wrote, none ended, List.nil_append, List.cons_append, List.head?_cons, Option.mem_some_iff]
    rintro _ rfl
    exact written.solid

theorem readEndsSolid {ts : List Token} (l : Layout) (rest : List Token) (raw : ∀ t ∈ ts, t.kind.isRaw = true)
    (solidLast : ∀ t ∈ ts.getLast?, t.kind.isGap = false) :
    ∀ w ∈ (l.read ts rest).1.getLast?, w.kind ≠ .terminator := by
  rcases List.eq_nil_or_concat ts with rfl | ⟨front, t, rfl⟩
  · simp [read]
  · obtain ⟨ended, w, wrote, written, -⟩ :=
      stepWritesSolid (l := (l.read front ([t] ++ rest)).2) rest (raw t (by simp)) (solidLast t (by simp))
    rw [List.concat_eq_append, readWritten]
    simp only [read, List.nil_append, wrote, List.append_nil, ← List.append_assoc, List.getLast?_concat,
      Option.mem_some_iff]
    rintro _ rfl
    exact written.solid

end Layout

/-- Semicolons and line breaks between two stretches of tokens: what is written for the stretches stands around
the terminators of the semicolons. -/
theorem layOutGap (front gap back : List Token) {s : Token} (semicolon : s.kind = .semicolon)
    (all : ∀ t ∈ gap, t.kind.isGap = true) (more : List Token) (also : ∀ t ∈ more, t.kind.isGap = true) :
    ∃ l : Layout, l.Ended ∧ layOut (front ++ gap ++ s :: (more ++ back)) =
      (Layout.read {} front (gap ++ s :: (more ++ back))).1 ++ ends gap ++
        s.become .terminator s.text :: (ends more ++ l.run back) := by
  have isGap : ∀ t ∈ gap ++ [s], t.kind.isGap = true := by
    intro t member
    rcases List.mem_append.mp member with inside | last
    · exact all t inside
    · cases List.mem_singleton.mp last
      rw [semicolon]
      rfl
  have split : front ++ gap ++ s :: (more ++ back) = front ++ ((gap ++ [s]) ++ (more ++ back)) := by simp
  let before := (Layout.read {} front ((gap ++ [s]) ++ (more ++ back))).2
  let after := (before.read (gap ++ [s]) (more ++ back)).2
  have ended : after.Ended := by
    show (before.read (gap ++ [s]) (more ++ back)).2.Ended
    rw [Layout.readAppend]
    exact Layout.stepEnds _ semicolon
  refine ⟨(after.read more back).2, Layout.readEnded _ ended also, ?_⟩
  rw [split, layOut, Layout.runAppend, Layout.runAppend, Layout.runAppend, Layout.readGap _ _ isGap,
    Layout.readGap _ _ also]
  simp [ends, semicolon, after, before]

theorem layoutKeepsTokens {ts : List Token} (raw : ∀ t ∈ ts, t.kind.isRaw = true) :
    unmarked (layOut ts) = solid ts ∧
      ∀ before s after, ts = before ++ s :: after → s.kind = .semicolon →
        ∃ front back,
          layOut ts = front ++ ends (before.rtakeWhile (·.kind.isGap)) ++ s.become .terminator s.text ::
            (ends (after.takeWhile (·.kind.isGap)) ++ back) ∧
          unmarked front = solid before ∧ unmarked back = solid after ∧
          (∀ w ∈ front.getLast?, w.kind ≠ .terminator) ∧ (∀ w ∈ back.head?, w.kind ≠ .terminator) := by
  refine ⟨Layout.runKeeps _ raw, ?_⟩
  rintro before s after rfl semicolon
  let isGap (t : Token) : Bool := t.kind.isGap
  have splitBefore : before.rdropWhile isGap ++ before.rtakeWhile isGap = before :=
    List.rdropWhile_append_rtakeWhile
  have splitAfter : after.takeWhile isGap ++ after.dropWhile isGap = after := List.takeWhile_append_dropWhile
  have gapBefore : ∀ t ∈ before.rtakeWhile isGap, t.kind.isGap = true := fun t => List.mem_rtakeWhile_imp
  have gapAfter : ∀ t ∈ after.takeWhile isGap, t.kind.isGap = true := fun t => List.mem_takeWhile_imp
  have rawBefore : ∀ t ∈ before.rdropWhile isGap, t.kind.isRaw = true :=
    fun t member => raw t (by simp [(List.rdropWhile_prefix isGap before).subset member])
  have rawAfter : ∀ t ∈ after.dropWhile isGap, t.kind.isRaw = true :=
    fun t member => raw t (by simp [(List.dropWhile_suffix isGap).subset member])
  obtain ⟨l, ended, written⟩ := layOutGap (before.rdropWhile isGap) (before.rtakeWhile isGap) (after.dropWhile isGap)
    semicolon gapBefore (after.takeWhile isGap) gapAfter
  rw [splitBefore, splitAfter] at written
  refine ⟨_, _, written, ?_, ?_, ?_, ?_⟩
  · rw [Layout.readKeeps _ _ rawBefore]
    conv_rhs => rw [← splitBefore, solidAppend, solidGap gapBefore, List.append_nil]
  · rw [Layout.runKeeps _ rawAfter]
    conv_rhs => rw [← splitAfter, solidAppend, solidGap gapAfter, List.nil_append]
  · refine Layout.readEndsSolid _ _ rawBefore fun t last => ?_
    obtain ⟨filled, rfl⟩ := List.mem_getLast?_eq_getLast last
    simpa [isGap] using List.rdropWhile_last_not isGap before filled
  · refine Layout.runEnded ended rawAfter fun t first => ?_
    have stops := List.head?_dropWhile_not isGap after
    rw [Option.mem_def.mp first] at stops
    simpa [isGap] using stops

/-- The tokens of `a;`, a line break, and `;() => b`. -/
def bareEnds : List Token :=
  [.name, .semicolon, .newline, .semicolon, .leftParen, .rightParen, .arrow, .name].map bareToken

/- Between `a` and the arrow parenthesis stand the terminators of the two semicolons and no third for the break. -/
theorem bareEndsKept : (∀ t ∈ bareEnds, t.kind.isRaw = true) ∧ unmarked (layOut bareEnds) = solid bareEnds ∧
    ∃ front back, layOut bareEnds =
        front ++ [(bareToken .semicolon).become .terminator "", (bareToken .semicolon).become .terminator ""] ++ back ∧
      unmarked front = [bareToken .name] ∧ (∀ w ∈ front.getLast?, w.kind ≠ .terminator) ∧
      unmarked back = [.leftParen, .rightParen, .arrow, .name].map bareToken ∧
      (∀ w ∈ back.head?, w.kind ≠ .terminator) := by
  have raw : ∀ t ∈ bareEnds, t.kind.isRaw = true := by decide
  obtain ⟨kept, semicolons⟩ := layoutKeepsTokens raw
  obtain ⟨front, back, written, before, after, first, last⟩ :=
    semicolons [bareToken .name] (bareToken .semicolon)
      ([.newline, .semicolon, .leftParen, .rightParen, .arrow, .name].map bareToken) rfl rfl
  have quiet : ends ([bareToken .name].rtakeWhile (·.kind.isGap)) = [] := rfl
  rw [quiet, List.append_nil] at written
  exact ⟨raw, kept, front, back, written.trans (by rw [List.append_assoc]; rfl), before, first, after, last⟩

end Fragment.Source
