import Fragment.Source.Literal
import Fragment.Typing.Checker
import Fragment.Proofs.Interning

/-! Texts of literal types.
A literal type is printed as JSON writes its text, and a string literal of the language is read by rules of its own.
Every text comes back all the same: what is printed is one token, whatever stands behind it, and is read as the text. -/
namespace Fragment

namespace Source

/-- How a character can be written between double quotes: as itself, by a letter behind a backslash, or by its code. -/
inductive Spells (c : Char) : List Char → Prop
  | itself (mark : c ≠ '"') (escape : c ≠ '\\') (line : c ≠ '\n') : Spells c [c]
  | short {e : Char} (line : e ≠ '\n') (coded : e ≠ 'u' ∧ e ≠ 'x') (means : simpleEscape e = [c]) : Spells c ['\\', e]
  | code {a b : Char} (digits : isHexDigit a = true ∧ isHexDigit b = true)
      (value : charOfCode (hexValue ['0', '0', a, b]) = .ok c) : Spells c ['\\', 'u', '0', '0', a, b]

theorem controlDigits : ∀ n < 0x20, Text.hexDigits 4 n = ['0', '0', Nat.digitChar (n / 16), Nat.digitChar (n % 16)] ∧
    (isHexDigit (Nat.digitChar (n / 16)) = true ∧ isHexDigit (Nat.digitChar (n % 16)) = true) ∧
    hexValue ['0', '0', Nat.digitChar (n / 16), Nat.digitChar (n % 16)] = n := by
  decide

theorem controlCode {c : Char} (control : c.toNat < 0x20) : charOfCode c.toNat = .ok c := by
  have valid : c.toNat < 0x110000 := by omega
  have plain : c.toNat < 0xd800 := by omega
  simp [charOfCode, valid, plain]

theorem jsonSpells (c : Char) : Spells c (Text.jsonChar false c) := by
  unfold Text.jsonChar
  split
  case isTrue marked =>
    obtain rfl | rfl : c = '"' ∨ c = '\\' := by simpa using marked
    · exact .short (by decide) (by decide) rfl
    · exact .short (by decide) (by decide) rfl
  case isFalse plain =>
    have unmarked : c ≠ '"' ∧ c ≠ '\\' := by simpa using plain
    split
    case isTrue line => exact line ▸ .short (by decide) (by decide) rfl
    case isFalse line =>
      split
      case isTrue same => exact same ▸ .short (by decide) (by decide) rfl
      split
      case isTrue same => exact same ▸ .short (by decide) (by decide) rfl
      split
      case isTrue same => exact same ▸ .short (by decide) (by decide) rfl
      split
      case isTrue same => exact same ▸ .short (by decide) (by decide) rfl
      split
      case isTrue control =>
        obtain ⟨written, digits, value⟩ := controlDigits c.toNat control
        rw [Text.unitEscape, written]
        exact .code digits (value.symm ▸ controlCode control)
      case isFalse => exact .itself unmarked.1 unmarked.2 line

/-- The characters between the quotes. -/
def inside (cs : List Char) : List Char := cs.flatMap (Text.jsonChar false)

theorem plainTaken {c : Char} (mark : c ≠ '"') (escape : c ≠ '\\') (line : c ≠ '\n') (tail : List Char) :
    takeString? '"' (c :: tail) = (takeString? '"' tail).map (c :: ·) := by
  rw [takeString?, if_neg mark, if_neg (by simp [line, escape])]
  intro _ _ same
  exact absurd same escape

theorem digitTaken {c : Char} (digit : isHexDigit c = true) (tail : List Char) :
    takeString? '"' (c :: tail) = (takeString? '"' tail).map (c :: ·) := by
  have other {d : Char} (none : isHexDigit d = false) : c ≠ d := by
    rintro rfl
    exact Bool.false_ne_true (none.symm.trans digit)
  exact plainTaken (other rfl) (other rfl) (other rfl) tail

theorem Spells.taken {c : Char} {spelled : List Char} (spells : Spells c spelled) (tail : List Char) :
    takeString? '"' (spelled ++ tail) = (takeString? '"' tail).map (spelled ++ ·) := by
  cases spells with
  | itself mark escape line => exact plainTaken mark escape line tail
  | short line =>
    change takeString? '"' ('\\' :: _ :: tail) = _
    rw [takeString?, if_neg line]
    rfl
  | code digits =>
    change takeString? '"' ('\\' :: 'u' :: '0' :: '0' :: _ :: _ :: tail) = _
    rw [takeString?, if_neg (by decide), digitTaken rfl, digitTaken rfl, digitTaken digits.1, digitTaken digits.2]
    cases takeString? '"' tail <;> rfl

theorem Spells.read {c : Char} {spelled : List Char} (spells : Spells c spelled) (fuel : Nat) (tail : List Char) :
    unescape (fuel + 1) (spelled ++ tail) = (unescape fuel tail).map (c :: ·) := by
  have last (cs : List Char) : (do return cs ++ (← unescape fuel tail) : Except Fault (List Char)) =
      (unescape fuel tail).map (cs ++ ·) := by
    cases unescape fuel tail <;> rfl
  cases spells with
  | itself mark escape line =>
    change unescape (fuel + 1) (c :: tail) = _
    rw [unescape]
    · exact last [c]
    · exact escape
  | @short e line coded means =>
    have taken : takeEscape (e :: tail) = .ok ([c], tail) := by
      unfold takeEscape
      simp [coded, means]
    change unescape (fuel + 1) ('\\' :: e :: tail) = _
    rw [unescape, taken]
    exact last [c]
  | @code a b digits value =>
    have zero : isHexDigit '0' = true := rfl
    have coded : fixedCode? 4 ('0' :: '0' :: a :: b :: tail) = some (['0', '0', a, b], tail) := by
      simp [fixedCode?, digits, zero]
    have taken : takeEscape ('u' :: '0' :: '0' :: a :: b :: tail) = .ok ([c], tail) := by
      unfold takeEscape
      simp [coded, value, bind, Except.bind, pure, Except.pure]
    change unescape (fuel + 1) ('\\' :: 'u' :: '0' :: '0' :: a :: b :: tail) = _
    rw [unescape, taken]
    exact last [c]

theorem Spells.nonempty {c : Char} {spelled : List Char} (spells : Spells c spelled) : 1 ≤ spelled.length := by
  cases spells <;> simp

theorem insideTaken (cs rest : List Char) : takeString? '"' (inside cs ++ '"' :: rest) = some (inside cs ++ ['"']) := by
  induction cs with
  | nil => simp [inside, takeString?]
  | cons c cs ih =>
    have split : inside (c :: cs) = Text.jsonChar false c ++ inside cs := rfl
    rw [split, List.append_assoc, (jsonSpells c).taken, ih, Option.map_some, List.append_assoc]

theorem insideRead {cs : List Char} {fuel : Nat} (enough : cs.length ≤ fuel) : unescape fuel (inside cs) = .ok cs := by
  induction cs generalizing fuel with
  | nil => cases fuel <;> rfl
  | cons c cs ih =>
    obtain ⟨fuel, rfl⟩ : ∃ k, fuel = k + 1 := ⟨fuel - 1, by simp at enough; omega⟩
    change unescape (fuel + 1) (Text.jsonChar false c ++ inside cs) = _
    rw [(jsonSpells c).read, ih (Nat.le_of_succ_le_succ enough)]
    rfl

theorem insideLonger (cs : List Char) : cs.length ≤ (inside cs).length := by
  induction cs with
  | nil => exact Nat.zero_le _
  | cons c cs ih =>
    have one : 1 ≤ (Text.jsonChar false c).length := (jsonSpells c).nonempty
    have split : (inside (c :: cs)).length = (Text.jsonChar false c).length + (inside cs).length := List.length_append
    rw [split, List.length_cons]
    omega

section Quoted

variable (v : String)

theorem quotedList : (Text.jsonQuoted false v).toList = '"' :: (inside v.toList ++ ['"']) := String.toList_ofList

theorem quotedLexeme (rest : List Char) : takeLexeme? ((Text.jsonQuoted false v).toList ++ rest) =
    some (.token .string (Text.jsonQuoted false v).toList) := by
  have number (cs : List Char) : takeNumber ('"' :: cs) = [] := rfl
  rw [quotedList, List.cons_append, List.append_assoc, takeLexeme?]
  simp [number, insideTaken]

/-- A text that is one token. -/
theorem lexWhole {c : Char} {rest : List Char} {kind : TokenKind} (lexeme : takeLexeme? (c :: rest) = some (.token kind (c :: rest)))
    (fuel : Nat) (pos : Position) : lexFrom (fuel + 1) pos #[] (c :: rest) =
      .ok #[⟨kind, String.ofList (c :: rest), ⟨pos, pos.advance (c :: rest)⟩⟩] := by
  rw [lexFrom, lexeme]
  simp only [Lexeme.spelled, List.drop_length]
  cases fuel <;> rfl

theorem quotedAlone : tokens (Text.jsonQuoted false v) = .ok [⟨.string, Text.jsonQuoted false v,
    ⟨⟨1, 1⟩, (⟨1, 1⟩ : Position).advance (Text.jsonQuoted false v).toList⟩⟩] := by
  have lexeme := quotedLexeme v []
  rw [List.append_nil, quotedList] at lexeme
  have whole := lexWhole lexeme (inside v.toList ++ ['"']).length ⟨1, 1⟩
  rw [tokens, quotedList, List.length_cons, whole, ← quotedList, String.ofList_toList]
  rfl

theorem quotedRead : stringValue (Text.jsonQuoted false v) = .ok v := by
  rw [stringValue, quotedList, List.drop_one, List.tail_cons, List.dropLast_concat, insideRead (insideLonger _)]
  exact congrArg Except.ok String.ofList_toList

end Quoted

end Source

namespace Typing

/-- The type of one text, which no alias has given a name. -/
def State.IsText (s : State) (t : TypeId) (v : String) : Prop :=
  (s.typeInfo t).form = .literal (.text v) stringType ∧ (s.typeInfo t).givenName = none

variable {s s' : State} {t : TypeId} {v : String}

theorem State.IsText.kept (is : s.IsText t v) (has : s.Has t) (e : s.Extends s') : s'.IsText t v := by
  obtain ⟨form, unnamed⟩ := is
  have same := (e.revises t has).closed (by rw [form]; rfl)
  exact ⟨same.1.trans form, same.2.trans unnamed⟩

theorem State.IsText.printed (is : s.IsText t v) : (answers.textOf t).run s = .ok (Text.jsonQuoted false v, s) := by
  obtain ⟨form, unnamed⟩ := is
  have asked : (Check.typeInfo t).run s = pure (s.typeInfo t, s) := rfl
  change ((Queries.ofDepth 999).computeText t 0).run s = _
  simp only [Queries.computeText, StateT.run_bind, asked, pure_bind, form, unnamed]
  rfl

/-- The table of the types of texts leads to them. -/
def State.TextsHeld (s : State) : Prop := ∀ v t, s.textLiterals[v]? = some t → s.Has t ∧ s.IsText t v

theorem initialTexts : State.initial.TextsHeld := by
  intro v t found
  simp [State.initial] at found

theorem textPushed (types : s'.types =
      s.types.push { flags := TypeFlags.stringLiteral, form := .literal (.text v) stringType }) :
    s'.Has s.types.size ∧ s'.IsText s.types.size v := by
  refine ⟨(State.hasPush types _).mpr (.inl rfl), ?_⟩
  rw [State.IsText, State.typeInfoPush types, if_pos rfl]
  exact ⟨rfl, rfl⟩

/-- Asking for the type of a text, in a table that is right. -/
theorem textMade (held : s.TextsHeld) (v : String) : ∃ t s', (Check.textLiteral v).run s = .ok (t, s') ∧
    s'.Has t ∧ s'.IsText t v ∧ s'.TextsHeld := by
  rw [State.textRun]
  cases found : s.textLiterals[v]? with
  | some t => exact ⟨t, s, rfl, (held v t found).1, (held v t found).2, held⟩
  | none =>
    refine ⟨_, _, rfl, (textPushed rfl).1, (textPushed rfl).2, fun w u entered => ?_⟩
    rcases (State.tableInsert found w u).mp entered with before | ⟨rfl, rfl⟩
    · obtain ⟨has, is⟩ := held w u before
      exact ⟨(State.hasPush rfl u).mpr (.inr has), is.kept has (State.extendsPush rfl)⟩
    · exact textPushed rfl

end Typing

open Source Typing

/-- The text of the type of `v`, and what the lexer makes of it. -/
structure LiteralText (v text : String) : Prop where
  start : State.initial.TextsHeld ∧ State.initial.Interned
  /-- The type can be had, and it is printed so then and in every later state. -/
  printed : ∀ s, s.TextsHeld → s.Interned → ∃ t s', (Check.textLiteral v).run s = .ok (t, s') ∧ s'.TextsHeld ∧
    ∀ after, Later s' after → (answers.textOf t).run after = .ok (text, after)
  everywhere : ∀ s t, s.IsText t v → (answers.textOf t).run s = .ok (text, s)
  /-- What stands behind the text does not change the token. -/
  token : ∀ rest, takeLexeme? (text.toList ++ rest) = some (.token .string text.toList)
  alone : tokens text = .ok [⟨.string, text, ⟨⟨1, 1⟩, (⟨1, 1⟩ : Position).advance text.toList⟩⟩]
  read : stringValue text = .ok v

theorem literalTextReadsBack (v : String) : LiteralText v (Text.jsonQuoted false v) where
  start := ⟨initialTexts, State.initialInterned⟩
  printed s held i := by
    obtain ⟨t, s', run, has, is, still⟩ := textMade held v
    refine ⟨t, s', run, still, fun after later => ?_⟩
    have later' := (i.step (.text v run)).1.along later
    exact (is.kept has later'.2).printed
  everywhere _ _ is := is.printed
  token := quotedLexeme v
  alone := quotedAlone v
  read := quotedRead v

end Fragment
