import Fragment.Proofs.Formulas

/-! The text of a formula, and the tokens in it.
A blank ends every word, so the words of a printed formula are the tokens of its text. They have no line
breaks, braces or arrows among them, so the layout adds nothing but the terminator at the end. -/
namespace Fragment.Source

open Double (spanDigits takeSign takeExponent takeUnsigned)

section Numbers

variable (cs rest : List Char)

theorem takeWhileStops {p : Char → Bool} (stops : p ' ' = false) :
    (cs ++ ' ' :: rest).takeWhile p = cs.takeWhile p := by
  induction cs with
  | nil => simp [stops]
  | cons c cs ih => cases holds : p c <;> simp [holds, ih]

theorem dropWhileStops {p : Char → Bool} (stops : p ' ' = false) :
    (cs ++ ' ' :: rest).dropWhile p = cs.dropWhile p ++ ' ' :: rest := by
  induction cs with
  | nil => simp [stops]
  | cons c cs ih => cases holds : p c <;> simp [holds, ih]

theorem spanDigitsStops :
    spanDigits (cs ++ ' ' :: rest) = ((spanDigits cs).1, (spanDigits cs).2 ++ ' ' :: rest) := by
  simp [spanDigits, List.span_eq_takeWhile_dropWhile, takeWhileStops, dropWhileStops, show Text.isDecimalDigit ' ' = false from rfl]

theorem takeSignStops : takeSign (cs ++ ' ' :: rest) = ((takeSign cs).1, (takeSign cs).2 ++ ' ' :: rest) := by
  rcases cs with _ | ⟨c, cs⟩
  · rfl
  · by_cases plus : c = '+'
    · subst plus
      rfl
    · by_cases minus : c = '-'
      · subst minus
        rfl
      · simp [takeSign, plus, minus]

theorem takeExponentStops :
    takeExponent (cs ++ ' ' :: rest) = ((takeExponent cs).1, (takeExponent cs).2 ++ ' ' :: rest) := by
  rcases cs with _ | ⟨c, cs⟩
  · rfl
  · simp only [List.cons_append, takeExponent, takeSignStops, spanDigitsStops]
    split
    · split <;> rfl
    · rfl

theorem takeUnsignedStops : (takeUnsigned (cs ++ ' ' :: rest)).1 = (takeUnsigned cs).1 := by
  simp only [takeUnsigned, spanDigitsStops]
  split
  · rcases (spanDigits cs).2 with _ | ⟨c, tail⟩
    · rfl
    · by_cases point : c = '.'
      · subst point
        simp only [List.cons_append, spanDigitsStops, takeExponentStops]
        split <;> rfl
      · simp [point]
  · rcases (spanDigits cs).2 with _ | ⟨c, tail⟩
    · simp [takeExponent]
    · by_cases point : c = '.'
      · subst point
        simp only [List.cons_append, spanDigitsStops, takeExponentStops]
      · have exponent := takeExponentStops (c :: tail) rest
        rw [List.cons_append] at exponent
        simp [point, exponent]

theorem takeNumberDecimal (decimal : ∀ x tail, cs = '0' :: x :: tail → x ≠ 'x' ∧ x ≠ 'X') :
    takeNumber cs = (takeUnsigned cs).1 := by
  unfold takeNumber
  split
  · next x tail =>
    obtain ⟨lower, upper⟩ := decimal x tail rfl
    simp [lower, upper]
  · rfl

theorem takeNumberStops : takeNumber (cs ++ ' ' :: rest) = takeNumber cs := by
  by_cases hex : ∃ x tail, cs = '0' :: x :: tail ∧ (x = 'x' ∨ x = 'X')
  · obtain ⟨x, tail, rfl, mark⟩ := hex
    have decimal := takeUnsignedStops ('0' :: x :: tail) rest
    simp only [List.cons_append] at decimal
    simp only [List.cons_append, takeNumber, takeWhileStops _ _ (show isHexDigit ' ' = false from rfl), decimal]
  · have plain : ∀ x tail, cs = '0' :: x :: tail → x ≠ 'x' ∧ x ≠ 'X' := by
      intro x tail same
      refine ⟨fun lower => hex ⟨x, tail, same, .inl lower⟩, fun upper => hex ⟨x, tail, same, .inr upper⟩⟩
    have plain' : ∀ x tail, cs ++ ' ' :: rest = '0' :: x :: tail → x ≠ 'x' ∧ x ≠ 'X' := by
      intro x tail same
      rcases cs with _ | ⟨c, _ | ⟨c', cs⟩⟩
      · simp at same
      · simp only [List.cons_append, List.nil_append, List.cons.injEq] at same
        simp [← same.2.1]
      · simp only [List.cons_append, List.cons.injEq] at same
        exact plain x cs (by simp [same.1, same.2.1])
    rw [takeNumberDecimal _ plain, takeNumberDecimal _ plain', takeUnsignedStops]

end Numbers

/-- What follows a word in a line of words: a blank or nothing. -/
def Spaced (rest : List Char) : Prop := rest = [] ∨ ∃ more, rest = ' ' :: more

/-- A word that is the token before a blank or the end of the text, and does not begin with a blank. -/
structure Word.Lexes (w : Word) : Prop where
  starts : ∃ c cs, w.text.toList = c :: cs ∧ isBlank c = false
  lexes : ∀ rest, Spaced rest → takeLexeme? (w.text.toList ++ rest) = some (.token w.kind w.text.toList)

theorem takeWhileSpaced {cs rest : List Char} (spaced : Spaced rest) {p : Char → Bool} (stops : p ' ' = false) :
    (cs ++ rest).takeWhile p = cs.takeWhile p := by
  obtain rfl | ⟨more, rfl⟩ := spaced
  · rw [List.append_nil]
  · exact takeWhileStops cs more stops

theorem takeNumberSpaced {cs rest : List Char} (spaced : Spaced rest) : takeNumber (cs ++ rest) = takeNumber cs := by
  obtain rfl | ⟨more, rfl⟩ := spaced
  · rw [List.append_nil]
  · exact takeNumberStops cs more

theorem nameStartCode {c : Char} (start : isNameStart c = true) :
    c.toNat < 128 ∧ (c.toNat < 48 → c.toNat = 36) ∧ 57 < c.toNat ∨ c.toNat = 36 := by
  delta isNameStart Char.isAlpha Char.isUpper Char.isLower at start
  simp only [Bool.or_eq_true, Bool.and_eq_true, decide_eq_true_eq, ge_iff_le, UInt32.le_iff_toNat_le] at start
  have code : c.val.toNat = c.toNat := rfl
  rcases start with ((⟨low, high⟩ | ⟨low, high⟩) | rfl) | rfl
  · simp [code] at low high; omega
  · simp [code] at low high; omega
  · decide
  · decide

-- A letter begins no number, and is no blank or quote.
theorem nameStartPlain {c : Char} (start : isNameStart c = true) :
    Text.isDecimalDigit c = false ∧ c ≠ '.' ∧ c ≠ '"' ∧ c ≠ '\'' ∧ isBlank c = false := by
  have code := nameStartCode start
  have other {d : Char} (low : d.toNat < 36 ∨ 36 < d.toNat ∧ d.toNat ≤ 57) : c ≠ d := by
    rintro rfl
    omega
  refine ⟨?_, other (by decide), other (by decide), other (by decide), ?_⟩
  · have digit : c.isDigit = false := by
      simp only [Char.isDigit, Bool.and_eq_false_iff, decide_eq_false_iff_not, ge_iff_le, UInt32.le_iff_toNat_le]
      have code' : c.val.toNat = c.toNat := rfl
      simp [code']
      omega
    simp [Text.isDecimalDigit, Text.digitValue?, digit, show c.toNat < 128 by omega]
  · simp only [isBlank, other (d := ' ') (by decide), other (d := '\t') (by decide), other (d := '\x0c') (by decide),
      other (d := '\r') (by decide), decide_false, Bool.or_self]

theorem takeNumberEmpty {c : Char} (cs : List Char) (digit : Text.isDecimalDigit c = false) (point : c ≠ '.') :
    takeNumber (c :: cs) = [] := by
  have zero : c ≠ '0' := by
    rintro rfl
    cases digit
  rw [takeNumberDecimal]
  · simp [takeUnsigned, spanDigits, List.span_eq_takeWhile_dropWhile, digit, point]
  · intro x tail same
    exact absurd (List.cons.inj same).1 zero

theorem wordLexes {text : String} (start : text.toList.head?.any isNameStart) (parts : text.toList.all isNamePart) :
    (⟨.ofWord text, text⟩ : Word).Lexes := by
  obtain ⟨c, cs, spelled⟩ : ∃ c cs, text.toList = c :: cs := by
    rcases same : text.toList with _ | ⟨c, cs⟩
    · simp [same] at start
    · exact ⟨c, cs, rfl⟩
  have letter : isNameStart c = true := by simpa [spelled] using start
  obtain ⟨digit, point, double, single, blank⟩ := nameStartPlain letter
  refine ⟨⟨c, cs, spelled, blank⟩, fun rest spaced => ?_⟩
  have word : (c :: (cs ++ rest)).takeWhile isNamePart = text.toList := by
    rw [← List.cons_append, ← spelled, takeWhileSpaced spaced rfl]
    have all : (text.toList ++ []).takeWhile isNamePart = text.toList ++ [].takeWhile isNamePart :=
      List.takeWhile_append_of_pos (List.all_eq_true.mp parts)
    simpa using all
  have number : takeNumber (c :: (cs ++ rest)) = [] := takeNumberEmpty _ digit point
  rw [show text.toList ++ rest = c :: (cs ++ rest) by rw [spelled]; rfl, takeLexeme?]
  simp [number, double, single, letter, word]

theorem numeralLexes {text : String} (numeral : isNumeral text) : (⟨.number, text⟩ : Word).Lexes := by
  obtain ⟨filled, number⟩ := numeral
  obtain ⟨c, cs, spelled⟩ : ∃ c cs, text.toList = c :: cs := List.exists_cons_of_ne_nil (by simpa using filled)
  constructor
  · refine ⟨c, cs, spelled, ?_⟩
    -- A text that begins with a blank has no number at its start.
    cases blank : isBlank c with
    | false => rfl
    | true =>
      have plain : Text.isDecimalDigit c = false ∧ c ≠ '.' := by
        simp only [isBlank, Bool.or_eq_true, decide_eq_true_eq] at blank
        rcases blank with ((rfl | rfl) | rfl) | rfl <;> exact ⟨rfl, by decide⟩
      rw [spelled, takeNumberEmpty cs plain.1 plain.2] at number
      cases number
  · intro rest spaced
    have taken : takeNumber (c :: (cs ++ rest)) = text.toList := by
      rw [← List.cons_append, ← spelled, takeNumberSpaced spaced, number]
    rw [show text.toList ++ rest = c :: (cs ++ rest) by rw [spelled]; rfl, takeLexeme?]
    simp [taken, filled]

theorem unaryLexes (op : UnaryOp) : (⟨op.kind, op.text⟩ : Word).Lexes := by
  constructor
  · cases op <;> exact ⟨_, _, rfl, rfl⟩
  · rintro _ (rfl | ⟨more, rfl⟩)
    · cases op <;> rfl
    · cases op <;> rfl

theorem binaryLexes (op : BinaryOp) : (⟨op.kind, op.text⟩ : Word).Lexes := by
  constructor
  · cases op <;> exact ⟨_, _, rfl, rfl⟩
  · rintro _ (rfl | ⟨more, rfl⟩)
    · cases op <;> rfl
    · cases op <;> rfl

theorem markLexes : ∀ w ∈ [⟨.leftParen, "("⟩, ⟨.rightParen, ")"⟩, ⟨.question, "?"⟩, (⟨.colon, ":"⟩ : Word)], w.Lexes := by
  simp only [List.mem_cons, List.not_mem_nil, or_false]
  rintro w (rfl | rfl | rfl | rfl) <;> exact ⟨⟨_, _, rfl, rfl⟩, by rintro _ (rfl | ⟨more, rfl⟩) <;> rfl⟩

theorem blankLexes {c : Char} (cs : List Char) (inner : isBlank c = false) :
    takeLexeme? (' ' :: c :: cs) = some (.skip [' ']) := by
  have number : takeNumber (' ' :: c :: cs) = [] := takeNumberEmpty _ rfl (by decide)
  rw [takeLexeme?]
  simp [number, inner, show isNameStart ' ' = false from rfl, show isBlank ' ' = true from rfl]

section Lines

variable {w : Word} (fuel : Nat) (pos : Position) (found : Array Token)

theorem lexWord (lexes : w.Lexes) {rest : List Char} (spaced : Spaced rest) : ∃ t after, t.word = w ∧
    lexFrom (fuel + 1) pos found (w.text.toList ++ rest) = lexFrom fuel after (found.push t) rest := by
  obtain ⟨c, cs, spelled, _⟩ := lexes.starts
  have lexeme := lexes.lexes rest spaced
  let after := pos.advance w.text.toList
  refine ⟨⟨w.kind, w.text, ⟨pos, after⟩⟩, after, rfl, ?_⟩
  rw [show w.text.toList ++ rest = c :: (cs ++ rest) by rw [spelled]; rfl] at lexeme ⊢
  rw [lexFrom, lexeme]
  simp only [Lexeme.spelled, String.ofList_toList]
  rw [spelled, ← List.cons_append, List.drop_left]
  simp [after, spelled]

theorem lexBlank {c : Char} (cs : List Char) (inner : isBlank c = false) :
    lexFrom (fuel + 1) pos found (' ' :: c :: cs) = lexFrom fuel (pos.advance [' ']) found (c :: cs) := by
  rw [lexFrom, blankLexes cs inner]
  rfl

/-- The characters of some words with blanks between them. -/
def spread (ws : List Word) : List Char := [' '].intercalate (ws.map (·.text.toList))

theorem spreadStarts (ws : List Word) (lexes : w.Lexes) : ∃ c cs, spread (w :: ws) = c :: cs ∧ isBlank c = false := by
  obtain ⟨c, cs, spelled, inner⟩ := lexes.starts
  cases ws with
  | nil => exact ⟨c, cs, by simp [spread, spelled], inner⟩
  | cons w' ws => exact ⟨c, _, by simp only [spread, List.map_cons, List.intercalate_cons_cons, spelled]; rfl, inner⟩

-- Words are read one after the other, each with the blank behind it.
theorem lexWords {ws : List Word} (lexes : ∀ w ∈ ws, w.Lexes) (enough : (spread ws).length ≤ fuel) :
    ∃ ts : List Token, lexFrom fuel pos found (spread ws) = .ok (found ++ ts.toArray) ∧ ts.map Token.word = ws := by
  induction ws generalizing fuel pos found with
  | nil =>
    unfold lexFrom
    exact ⟨[], by simp [spread], rfl⟩
  | cons w ws ih =>
    have first : w.Lexes := lexes w List.mem_cons_self
    obtain ⟨c, cs, spelled, _⟩ := first.starts
    cases ws with
    | nil =>
      have single : spread [w] = w.text.toList ++ [] := by simp [spread]
      rw [single, spelled, List.append_nil, List.length_cons] at enough
      obtain ⟨fuel, rfl⟩ := Nat.exists_eq_add_of_le' (by omega : 1 ≤ fuel)
      obtain ⟨t, after, word, run⟩ := lexWord fuel pos found first (.inl rfl)
      refine ⟨[t], ?_, by simp [word]⟩
      rw [single, run]
      unfold lexFrom
      simp
    | cons w' ws =>
      obtain ⟨c', cs', starts, inner⟩ := spreadStarts ws (lexes w' (by simp))
      have parts : spread (w :: w' :: ws) = w.text.toList ++ ' ' :: spread (w' :: ws) := by
        simp [spread, List.intercalate_cons_cons]
      rw [parts, spelled, List.length_append, List.length_cons, List.length_cons] at enough
      obtain ⟨fuel, rfl⟩ := Nat.exists_eq_add_of_le' (by omega : 2 ≤ fuel)
      obtain ⟨t, after, word, run⟩ := lexWord (fuel + 1) pos found first (.inr ⟨spread (w' :: ws), rfl⟩)
      obtain ⟨ts, later, words⟩ := ih fuel (after.advance [' ']) (found.push t)
        (fun w member => lexes w (List.mem_cons_of_mem _ member)) (by omega)
      refine ⟨t :: ts, ?_, by simp [word, words]⟩
      rw [parts, run, starts, lexBlank fuel after _ cs' inner, ← starts, later]
      simp

end Lines

theorem tokensOfWords {ws : List Word} (lexes : ∀ w ∈ ws, w.Lexes) :
    ∃ ts, tokens (" ".intercalate (ws.map (·.text))) = .ok ts ∧ ts.map Token.word = ws := by
  have line : (" ".intercalate (ws.map (·.text))).toList = spread ws := by
    rw [String.toList_intercalate, List.map_map]
    rfl
  obtain ⟨ts, run, words⟩ := lexWords _ ⟨1, 1⟩ #[] lexes le_rfl
  refine ⟨ts, ?_, words⟩
  rw [tokens, line]
  simp [run, Except.map]

/-- The kinds of the words of formulas. -/
def plainKinds : List TokenKind :=
  [.name, .number, .trueWord, .falseWord, .typeofWord, .bang, .plus, .minus, .star, .slash, .percent, .starStar, .less,
    .greater, .lessEqual, .greaterEqual, .strictEqual, .strictNotEqual, .looseEqual, .looseNotEqual, .and, .or,
    .question, .colon, .leftParen, .rightParen]

structure Word.Plain (w : Word) : Prop where
  lexes : w.Lexes
  kind : w.kind ∈ plainKinds

theorem bracketedPlain {own need : Nat} {ws : List Word} (plain : ∀ w ∈ ws, w.Plain) :
    ∀ w ∈ bracketed own need ws, w.Plain := by
  unfold bracketed
  split
  · simp only [List.mem_cons, List.mem_append, List.not_mem_nil, or_false]
    rintro w (rfl | inner | rfl)
    · exact ⟨markLexes _ (by simp), by decide⟩
    · exact plain w inner
    · exact ⟨markLexes _ (by simp), by decide⟩
  · exact plain

theorem Formula.wordsPlain {e : Expr} (formula : Formula e) : ∀ need, ∀ w ∈ e.words need, w.Plain := by
  induction formula with
  | name mark spelled =>
    intro need w member
    cases List.mem_singleton.mp member
    obtain ⟨start, parts, word⟩ := spelled
    exact ⟨word ▸ wordLexes start parts, by simp [plainKinds]⟩
  | number mark spelled denotes =>
    intro need w member
    cases List.mem_singleton.mp member
    exact ⟨numeralLexes spelled, by simp [plainKinds]⟩
  | boolean mark value =>
    intro need w member
    cases List.mem_singleton.mp member
    cases value
    · exact ⟨@wordLexes "false" (by decide) (by decide), by decide⟩
    · exact ⟨@wordLexes "true" (by decide) (by decide), by decide⟩
  | unary mark op inner ih =>
    intro need
    refine bracketedPlain fun w member => ?_
    rcases List.mem_cons.mp member with rfl | inside
    · exact ⟨unaryLexes op, by cases op <;> decide⟩
    · exact ih _ w inside
  | binary mark op first second ih ih' =>
    intro need
    refine bracketedPlain fun w member => ?_
    rcases List.mem_append.mp member with before | later
    · exact ih _ w before
    · rcases List.mem_cons.mp later with rfl | behind
      · exact ⟨binaryLexes op, by cases op <;> decide⟩
      · exact ih' _ w behind
  | conditional mark decides first second ih ih' ih'' =>
    intro need
    refine bracketedPlain fun w member => ?_
    simp only [List.mem_append, List.mem_cons] at member
    rcases member with test | rfl | yes | rfl | no
    · exact ih _ w test
    · exact ⟨markLexes _ (by simp), by decide⟩
    · exact ih' _ w yes
    · exact ⟨markLexes _ (by simp), by decide⟩
    · exact ih'' _ w no

theorem Formula.wordsFilled {e : Expr} (formula : Formula e) (need : Nat) : e.words need ≠ [] := by
  cases formula <;> simp only [Expr.words, bracketed] <;> (try split) <;> simp

namespace Layout

theorem afterClosingSubset {depth : Nat} {ts rest : List Token} (found : afterClosing depth ts = some rest) :
    rest ⊆ ts := by
  induction ts generalizing depth with
  | nil => simp [afterClosing] at found
  | cons t ts ih =>
    refine List.subset_cons_of_subset t ?_
    rw [afterClosing] at found
    split at found
    · exact ih found
    · split at found
      · split at found
        · cases found
          exact List.Subset.refl _
        · exact ih found
      · exact ih found

theorem arrowAfterTypeFree (depth : Nat) {ts : List Token} (free : ∀ t ∈ ts, t.kind ≠ .arrow) :
    arrowAfterType depth ts = false := by
  induction ts generalizing depth with
  | nil => rfl
  | cons t ts ih =>
    have first := free t List.mem_cons_self
    have later (depth : Nat) := ih depth fun t member => free t (List.mem_cons_of_mem _ member)
    unfold arrowAfterType
    split
    · exact later _
    · split
      · split
        · rfl
        · exact later _
      · split
        · split
          · contradiction
          all_goals first | rfl | exact later _
        · exact later _

theorem startsArrowFree {ts : List Token} (free : ∀ t ∈ ts, t.kind ≠ .arrow) : startsArrow ts = false := by
  unfold startsArrow
  split
  · next t rest found =>
    have inside := afterClosingSubset found
    have here := free t (inside List.mem_cons_self)
    have later := arrowAfterTypeFree 0 fun u member => free u (inside (List.mem_cons_of_mem _ member))
    simp [here, later]
  · rfl

/-- A token of a formula or an arrow, which opens no parameters. -/
structure Plain (t : Token) (rest : List Token) : Prop where
  kind : t.kind ∈ .arrow :: plainKinds
  clear : t.kind = .leftParen → startsArrow (t :: rest) = false

theorem Plain.ofFormula {t : Token} {rest : List Token} (plain : ∀ u ∈ t :: rest, u.kind ∈ plainKinds) : Plain t rest where
  kind := List.mem_cons_of_mem _ (plain t List.mem_cons_self)
  clear _ := startsArrowFree fun u member arrow => by
    have kind := plain u member
    rw [arrow] at kind
    exact absurd kind (by decide)

theorem writePlain (l : Layout) {t : Token} {rest : List Token} (settled : l.pending = none) (plain : Plain t rest) :
    ∃ l', l.write t rest = ([t], l') ∧ l'.pending = none ∧ l'.last = some t ∧ l'.closedBlock = false := by
  have here := plain.kind
  unfold write
  split
  · next brace => exact absurd (brace ▸ here) (by decide)
  · next paren => simp [plain.clear paren, wrote, settled]
  · simp [wrote, settled]
  · simp [wrote, settled]
  · simp [wrote, settled]
  · next brace => exact absurd (brace ▸ here) (by decide)
  · simp [wrote, settled]

-- A plain token is written as it is.
theorem stepPlain (l : Layout) {t : Token} {rest : List Token} (settled : l.pending = none) (plain : Plain t rest) :
    ∃ l', l.step t rest = ([t], l') ∧ l'.pending = none ∧ l'.last = some t ∧ l'.closedBlock = false := by
  have here := plain.kind
  unfold step
  split
  · next brk => exact absurd (brk ▸ here) (by decide)
  · next semicolon => exact absurd (semicolon ▸ here) (by decide)
  · have still : l.settle t.kind = ([], l) := by simp [settle, settled]
    simp only [still]
    split
    · obtain ⟨l', written, kept⟩ := writePlain { l with head := some t.kind } settled plain
      exact ⟨l', by simp [written], kept⟩
    · obtain ⟨l', written, kept⟩ := writePlain l settled plain
      exact ⟨l', by simp [written], kept⟩

/-- Tokens that are plain before what follows them. -/
def Plainly : List Token → List Token → Prop
  | [], _ => True
  | t :: ts, rest => Plain t (ts ++ rest) ∧ Plainly ts rest

theorem Plainly.ofFormula {ts rest : List Token} (plain : ∀ t ∈ ts ++ rest, t.kind ∈ plainKinds) : Plainly ts rest := by
  induction ts with
  | nil => trivial
  | cons t ts ih => exact ⟨.ofFormula plain, ih fun u member => plain u (List.mem_cons_of_mem _ member)⟩

theorem Plainly.kinds {ts rest : List Token} (plain : Plainly ts rest) : ∀ t ∈ ts, t.kind ∈ .arrow :: plainKinds := by
  induction ts with
  | nil => simp
  | cons t ts ih => exact List.forall_mem_cons.mpr ⟨plain.1.kind, ih plain.2⟩

theorem runPlain (l : Layout) (settled : l.pending = none) (unclosed : l.closedBlock = false) {ts rest : List Token}
    (plain : Plainly ts rest) : ∃ l' : Layout, l.run (ts ++ rest) = ts ++ l'.run rest ∧ l'.pending = none ∧
      l'.closedBlock = false ∧ l'.last = ts.getLast?.or l.last := by
  induction ts generalizing l with
  | nil => exact ⟨l, rfl, settled, unclosed, rfl⟩
  | cons t ts ih =>
    obtain ⟨here, later⟩ := plain
    obtain ⟨l', stepped, settled', last, unclosed'⟩ := stepPlain l settled here
    obtain ⟨l'', ran, settled'', unclosed'', last'⟩ := ih l' settled' unclosed' later
    refine ⟨l'', ?_, settled'', unclosed'', ?_⟩
    · simp only [List.cons_append, run, stepped, ran, List.nil_append]
    · rw [last', last, List.getLast?_cons]
      cases ts.getLast? <;> rfl

theorem finishPlain {l : Layout} {t : Token} (last : l.last = some t) (unclosed : l.closedBlock = false)
    (inner : t.kind ∈ .arrow :: plainKinds) : l.run [] = [t.become .terminator ""] := by
  have unended : t.kind ≠ .terminator := fun same => absurd (same ▸ inner) (by decide)
  simp [run, finish, last, unclosed, unended]

end Layout

theorem layOutPlain {ts : List Token} (filled : ts ≠ []) (plain : ∀ t ∈ ts, t.kind ∈ plainKinds) :
    ∃ t : Token, t.kind = .terminator ∧ layOut ts = ts ++ [t] := by
  obtain ⟨l, ran, -, unclosed, last⟩ := Layout.runPlain {} rfl rfl (.ofFormula (by simpa using plain) : Layout.Plainly ts [])
  have inner := List.mem_cons_of_mem TokenKind.arrow (plain _ (List.getLast_mem filled))
  rw [List.getLast?_eq_some_getLast filled, Option.some_or] at last
  rw [List.append_nil, Layout.finishPlain last unclosed inner] at ran
  exact ⟨_, rfl, ran⟩

end Fragment.Source
