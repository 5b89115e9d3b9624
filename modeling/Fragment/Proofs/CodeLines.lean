import Fragment.Proofs.NameTokens
import Fragment.Target.Text
import Fragment.Text.Blank

/-! The text of code whose names are words.
No part of it breaks a line, begins with a blank or ends with a colon, heads of statements apart. So the
lines of a rendered module are the lines that it was put together from. -/
namespace Fragment.Target

open Source (IsWord)

/-! Texts -/

/-- No character of a text ends a line. -/
def Unbroken (t : String) : Prop := ∀ c ∈ t.toList, Text.endsLine c = false

/-- A text with a first character, which is no blank. -/
def Begins (t : String) : Prop := ∃ c ∈ t.toList.head?, Text.isBlank c = false

/-- A text with a last character, which is no colon. -/
def Ends (t : String) : Prop := ∃ c ∈ t.toList.getLast?, c ≠ ':'

instance (t : String) : Decidable (Unbroken t) := inferInstanceAs (Decidable (∀ c ∈ t.toList, Text.endsLine c = false))

variable {a b t : String}

theorem unbrokenAppend (a b : String) : Unbroken (a ++ b) ↔ Unbroken a ∧ Unbroken b := by
  simp [Unbroken, or_imp, forall_and]

theorem Begins.append (begins : Begins a) (b : String) : Begins (a ++ b) := by
  obtain ⟨c, first, blank⟩ := begins
  exact ⟨c, by simp [Option.mem_def.mp first], blank⟩

theorem Ends.append (a : String) (ends : Ends b) : Ends (a ++ b) := by
  obtain ⟨c, last, colon⟩ := ends
  exact ⟨c, by simp [Option.mem_def.mp last], colon⟩

/-- A part of a line. -/
structure Piece (t : String) : Prop where
  unbroken : Unbroken t
  begins : Begins t
  ends : Ends t

/-- A text of characters that neither end a line nor are a blank or a colon. -/
theorem Piece.ofChars (some : t.toList ≠ [])
    (plain : ∀ c ∈ t.toList, Text.endsLine c = false ∧ Text.isBlank c = false ∧ c ≠ ':') : Piece t := by
  refine ⟨fun c member => (plain c member).1, ?_, ?_⟩
  · exact ⟨t.toList.head some, List.head?_eq_some_head some, (plain _ (List.head_mem some)).2.1⟩
  · exact ⟨t.toList.getLast some, List.getLast?_eq_some_getLast some, (plain _ (List.getLast_mem some)).2.2⟩

/-! Names -/

/-- A character with a code below that of delete and no control character. -/
theorem visibleUnbroken {c : Char} (low : 0x20 ≤ c.toNat) (high : c.toNat < 0x7f) : Text.endsLine c = false := by
  simp [Text.endsLine]
  omega

theorem visibleNoBlank {c : Char} (low : 0x20 < c.toNat) (high : c.toNat < 0x7f) : Text.isBlank c = false := by
  simp [Text.isBlank]
  omega

theorem alphanumVisible {c : Char} (alphanum : c.isAlphanum) : 0x30 ≤ c.toNat ∧ c.toNat < 0x7f ∧ c ≠ ':' := by
  delta Char.isAlphanum Char.isAlpha Char.isUpper Char.isLower Char.isDigit at alphanum
  simp only [Bool.or_eq_true, Bool.and_eq_true, decide_eq_true_eq, ge_iff_le, UInt32.le_iff_toNat_le] at alphanum
  have code : c.val.toNat = c.toNat := rfl
  have range : 0x30 ≤ c.toNat ∧ c.toNat ≤ 0x39 ∨ 0x41 ≤ c.toNat ∧ c.toNat < 0x7f := by
    rcases alphanum with (⟨low, high⟩ | ⟨low, high⟩) | ⟨low, high⟩ <;> simp [code] at low high <;> omega
  refine ⟨by omega, by omega, ?_⟩
  rintro rfl
  exact absurd range (by decide)

theorem wordPiece (word : IsWord t) : Piece t := by
  refine .ofChars word.1 fun c member => ?_
  have part := word.2 c member
  simp only [Source.isNamePart, Bool.or_eq_true, decide_eq_true_eq] at part
  rcases part with (alphanum | rfl) | rfl
  · obtain ⟨low, high, colon⟩ := alphanumVisible alphanum
    exact ⟨visibleUnbroken (by omega) high, visibleNoBlank (by omega) high, colon⟩
  · decide
  · decide

/-! Numbers -/

/-- Made of digits and of what stands between them. -/
def Numeral (cs : List Char) : Prop := ∀ c ∈ cs, c.isDigit ∨ c ∈ ['-', '+', '.', 'e']

theorem numeralAppend (xs ys : List Char) : Numeral (xs ++ ys) ↔ Numeral xs ∧ Numeral ys := by
  simp only [Numeral, List.mem_append, or_imp, forall_and]

instance (cs : List Char) : Decidable (Numeral cs) :=
  inferInstanceAs (Decidable (∀ c ∈ cs, c.isDigit ∨ c ∈ ['-', '+', '.', 'e']))

theorem numeralCons (c : Char) (cs : List Char) : Numeral (c :: cs) ↔ (c.isDigit ∨ c ∈ ['-', '+', '.', 'e']) ∧ Numeral cs :=
  List.forall_mem_cons

theorem Numeral.part {xs ys : List Char} (numeral : Numeral ys) (part : xs ⊆ ys) : Numeral xs :=
  fun c member => numeral c (part member)

theorem digitsNumeral (n : Nat) : Numeral (Nat.toDigits 10 n) := fun _ member =>
  .inl (Nat.isDigit_of_mem_toDigits (by decide) (by decide) member)

theorem digitCharsNumeral (n : Nat) : Numeral (Double.digitChars n) := by
  simpa [Double.digitChars, Nat.repr] using digitsNumeral n

theorem zerosNumeral (count : Nat) : Numeral (Double.zeros count) := fun _ member =>
  .inl (List.eq_of_mem_replicate member ▸ rfl)

theorem positionalNumeral {ds : List Char} (digits : Numeral ds) (point : Int) :
    Double.positional ds point ['.', '0'] ≠ [] ∧ Numeral (Double.positional ds point ['.', '0']) := by
  unfold Double.positional
  split
  · simp [numeralAppend, numeralCons, digits, zerosNumeral]
  · split
    · have fraction : Numeral ['.', '0'] := by decide
      refine ⟨by simp, ?_⟩
      simp only [numeralAppend]
      exact ⟨⟨digits, zerosNumeral _⟩, fraction⟩
    · simp [numeralAppend, numeralCons, digits.part (List.take_subset ..), digits.part (List.drop_subset ..)]

theorem scientificNumeral {ds : List Char} (digits : Numeral ds) (exponent : Int) (width : Nat) :
    Double.scientific ds exponent width ≠ [] ∧ Numeral (Double.scientific ds exponent width) := by
  unfold Double.scientific
  refine ⟨by simp, ?_⟩
  simp only [numeralAppend, numeralCons, zerosNumeral, digitCharsNumeral, and_true]
  refine ⟨?_, by decide, ?_⟩
  · cases ds with
    | nil => exact digits
    | cons d rest => cases rest with
      | nil => exact digits
      | cons => simpa [numeralCons] using digits
  · split <;> decide

theorem valueCharsNumeral (d : Double.Decimal) : d.valueChars ≠ [] ∧ Numeral d.valueChars := by
  unfold Double.Decimal.valueChars
  dsimp only
  split
  · exact positionalNumeral (digitCharsNumeral d.digits) _
  · exact scientificNumeral (digitCharsNumeral d.digits) _ 2

theorem signedNumeral {cs : List Char} (numeral : cs ≠ [] ∧ Numeral cs) (negative : Bool) :
    (Double.signed negative cs).toList ≠ [] ∧ Numeral (Double.signed negative cs).toList := by
  cases negative with
  | false => simpa [Double.signed] using numeral
  | true => simpa [Double.signed, numeralCons] using numeral.2

theorem intNumeral (n : Int) : (toString n).toList ≠ [] ∧ Numeral (toString n).toList := by
  cases n with
  | ofNat n =>
    have shown : (toString (Int.ofNat n)).toList = Nat.toDigits 10 n := by
      have unsigned : toString (Int.ofNat n) = toString n := rfl
      rw [unsigned]
      simp
    exact shown ▸ ⟨Nat.toDigits_ne_nil, digitsNumeral n⟩
  | negSucc n =>
    have shown : (toString (Int.negSucc n)).toList = '-' :: Nat.toDigits 10 (n + 1) := by
      have signed : toString (Int.negSucc n) = "-" ++ toString (n + 1) := rfl
      simp [signed]
    exact shown ▸ ⟨List.cons_ne_nil _ _, (numeralCons _ _).mpr ⟨by decide, digitsNumeral (n + 1)⟩⟩

theorem numeralPiece (some : t.toList ≠ []) (numeral : Numeral t.toList) : Piece t := by
  refine .ofChars some fun c member => ?_
  rcases numeral c member with digit | mark
  · obtain ⟨low, high, colon⟩ := alphanumVisible (c := c) (by simp [Char.isAlphanum, digit])
    exact ⟨visibleUnbroken (by omega) high, visibleNoBlank (by omega) high, colon⟩
  · exact (show ∀ c ∈ ['-', '+', '.', 'e'], Text.endsLine c = false ∧ Text.isBlank c = false ∧ c ≠ ':' by decide) c mark

/-- Something in parentheses. -/
theorem parenthesized (unbroken : Unbroken t) : Piece ("(" ++ t ++ ")") := by
  refine ⟨?_, Begins.append (Begins.append ⟨'(', rfl, by decide⟩ t) ")", Ends.append _ ⟨')', rfl, by decide⟩⟩
  simp only [unbrokenAppend]
  exact ⟨⟨by decide, unbroken⟩, by decide⟩

theorem numberPiece (n : Number) : Piece (numberLiteral n) := by
  have plain {t : String} (numeral : t.toList ≠ [] ∧ Numeral t.toList) :
      Piece (if t.startsWith "-" then "(" ++ t ++ ")" else t) := by
    have piece := numeralPiece numeral.1 numeral.2
    split
    · exact parenthesized piece.unbroken
    · exact piece
  unfold numberLiteral
  dsimp only
  split
  · exact plain (intNumeral _)
  next x =>
    split
    · exact parenthesized (t := "1e999 * 0") (by decide)
    · split
      · exact parenthesized (t := "-1e999") (by decide)
      · exact numeralPiece (t := "1e999") (by decide) (by decide)
    next b finite =>
      split
      · exact plain (intNumeral _)
      · refine plain ?_
        unfold Double.valueText
        rw [finite]
        dsimp only
        split
        · exact signedNumeral (by simp [Numeral]) _
        · exact signedNumeral (valueCharsNumeral _) _

/-! Quoted texts -/

set_option maxRecDepth 2048 in
theorem separatorsUnprintable : ∀ n ∈ [0x85, 0x2028, 0x2029], Text.inRanges Text.unprintableRanges n = true := by
  simp only [Text.inRanges, ← Array.any_toList]
  decide

theorem printableUnbroken {c : Char} (printable : Text.isPrintable c) : Text.endsLine c = false := by
  unfold Text.isPrintable at printable
  split at printable
  next low =>
    simp only [Bool.and_eq_true, decide_eq_true_eq] at printable
    exact visibleUnbroken printable.1 printable.2
  next high =>
    have other : c.toNat ∉ [0x85, 0x2028, 0x2029] := by
      intro separator
      simp [separatorsUnprintable _ separator] at printable
    simp only [List.mem_cons, List.not_mem_nil, or_false, not_or] at other
    simp [Text.endsLine, other]
    omega

theorem hexDigitsUnbroken (width n : Nat) : ∀ c ∈ Text.hexDigits width n, Text.endsLine c = false := by
  have digit : ∀ d < 16, Text.endsLine (Nat.digitChar d) = false := by decide
  intro c member
  obtain ⟨i, -, rfl⟩ := List.mem_map.mp member
  exact digit _ (Nat.mod_lt _ (by decide))

theorem quotedCharUnbroken {mark : Char} (unbroken : Text.endsLine mark = false) (c : Char) :
    ∀ d ∈ Text.quotedChar mark c, Text.endsLine d = false := by
  have escaped {kind : Char} (plain : Text.endsLine kind = false) (width n : Nat) :
      ∀ d ∈ '\\' :: kind :: Text.hexDigits width n, Text.endsLine d = false :=
    List.forall_mem_cons.mpr ⟨by decide, List.forall_mem_cons.mpr ⟨plain, hexDigitsUnbroken width n⟩⟩
  unfold Text.quotedChar
  split
  next same =>
    simp only [Bool.or_eq_true, decide_eq_true_eq] at same
    refine List.forall_mem_cons.mpr ⟨by decide, List.forall_mem_singleton.mpr ?_⟩
    rcases same with rfl | rfl
    · exact unbroken
    · decide
  split
  · decide
  split
  · decide
  split
  · decide
  split
  next printable => exact List.forall_mem_singleton.mpr (printableUnbroken printable)
  split
  · exact escaped (by decide) 2 _
  split
  · exact escaped (by decide) 4 _
  · exact escaped (by decide) 8 _

theorem quotedPiece (t : String) : Piece (Text.quoted t) := by
  have shown (mark : Char) (fits : Text.endsLine mark = false ∧ Text.isBlank mark = false ∧ mark ≠ ':') :
      Piece (String.ofList (mark :: t.toList.flatMap (Text.quotedChar mark) ++ [mark])) := by
    refine ⟨fun c member => ?_, ⟨mark, by simp, fits.2.1⟩, ⟨mark, by simp [List.getLast?_cons], fits.2.2⟩⟩
    simp only [String.toList_ofList, List.cons_append, List.mem_cons, List.mem_append, List.mem_flatMap, List.not_mem_nil,
      or_false] at member
    rcases member with rfl | ⟨d, -, inside⟩ | rfl
    · exact fits.1
    · exact quotedCharUnbroken fits.1 d c inside
    · exact fits.1
  unfold Text.quoted Text.quoteMark
  dsimp only
  split
  · exact shown '"' (by decide)
  · exact shown '\'' (by decide)

/-! Code -/

mutual

/-- All names in an expression are words. -/
def Expr.Worded : Expr → Prop
  | .none | .bool _ | .number _ | .text _ => True
  | .name x => IsWord x
  | .dict entries => WordedEntries entries
  | .list items => WordedAll items
  | .subscript target _ => target.Worded
  | .call callee args => callee.Worded ∧ WordedAll args
  | .helper _ args => WordedAll args
  | .truthyBind x value => IsWord x ∧ value.Worded
  | .await value | .negate value | .not value => value.Worded
  | .binary _ left right | .and left right | .or left right => left.Worded ∧ right.Worded
  | .cond test yes no => test.Worded ∧ yes.Worded ∧ no.Worded
  | .bind x value => IsWord x ∧ value.Worded

def WordedAll : List Expr → Prop
  | [] => True
  | e :: rest => e.Worded ∧ WordedAll rest

def WordedEntries : List (String × Expr) → Prop
  | [] => True
  | (_, e) :: rest => e.Worded ∧ WordedEntries rest

end

mutual

/-- All names in a statement are words, and no branch or body is empty. -/
def Stmt.Worded : Stmt → Prop
  | .assign x value => IsWord x ∧ value.Worded
  | .expr value | .ret value => value.Worded
  | .cond test yes no => test.Worded ∧ yes ≠ [] ∧ WordedStmts yes ∧ WordedOption no
  | .loop test body => test.Worded ∧ body ≠ [] ∧ WordedStmts body
  | .brk | .cont | .pass => True
  | .globals names | .nonlocals names => ∀ x ∈ names, IsWord x
  | .collect x => IsWord x
  | .define name _ params body => IsWord name ∧ (∀ p ∈ params, IsWord p.name) ∧ body ≠ [] ∧ WordedStmts body

def WordedStmts : List Stmt → Prop
  | [] => True
  | s :: rest => s.Worded ∧ WordedStmts rest

def WordedOption : Option (List Stmt) → Prop
  | none => True
  | some body => body ≠ [] ∧ WordedStmts body

end

theorem operatorUnbroken (op : Operator) : Unbroken op.text := by cases op <;> decide

theorem helperUnbroken (h : Helper) : Unbroken h.name := by cases h <;> decide

mutual

theorem renderPiece : (e : Expr) → e.Worded → Piece e.render
  | .none, _ => .ofChars (by decide) (by decide)
  | .bool true, _ => .ofChars (by decide) (by decide)
  | .bool false, _ => .ofChars (by decide) (by decide)
  | .number n, _ => numberPiece n
  | .text t, _ => quotedPiece t
  | .name x, word => wordPiece word
  | .dict entries, worded => by
    have inside := renderEntriesUnbroken entries worded
    unfold Expr.render
    refine ⟨?_, ⟨'\x7b', by simp, by decide⟩, ⟨'\x7d', by simp [List.getLast?_cons], by decide⟩⟩
    simp +decide only [unbrokenAppend, inside]
  | .list items, worded => by
    have inside := renderAllUnbroken items worded
    unfold Expr.render
    refine ⟨?_, ⟨'[', by simp, by decide⟩, ⟨']', by simp [List.getLast?_cons], by decide⟩⟩
    simp +decide only [unbrokenAppend, inside]
  | .subscript target key, worded => by
    have object := renderPiece target worded
    unfold Expr.render
    refine ⟨?_, ((object.begins.append _).append _).append _, Ends.append _ ⟨']', by simp, by decide⟩⟩
    simp +decide only [unbrokenAppend, object.unbroken, (quotedPiece key).unbroken]
  | .call callee args, worded => by
    have function := renderPiece callee worded.1
    have inside := renderAllUnbroken args worded.2
    unfold Expr.render
    refine ⟨?_, ((function.begins.append _).append _).append _, Ends.append _ ⟨')', by simp, by decide⟩⟩
    simp +decide only [unbrokenAppend, function.unbroken, inside]
  | .helper h args, worded => by
    have inside := renderAllUnbroken args worded
    unfold Expr.render
    refine ⟨?_, ⟨'_', by simp [helpersName], by decide⟩, ⟨')', by simp [List.getLast?_cons], by decide⟩⟩
    simp +decide only [unbrokenAppend, helperUnbroken h, inside]
  | .truthyBind x value, worded => by
    have name := (wordPiece worded.1).unbroken
    have inside := (renderPiece value worded.2).unbroken
    unfold Expr.render
    refine ⟨?_, ⟨'_', by simp [helpersName], by decide⟩, ⟨')', by simp [List.getLast?_cons], by decide⟩⟩
    simp +decide only [unbrokenAppend, name, inside]
  | .await value, worded => by
    have inside := (renderPiece value worded).unbroken
    unfold Expr.render
    refine ⟨?_, ⟨'(', by simp, by decide⟩, ⟨')', by simp [List.getLast?_cons], by decide⟩⟩
    simp +decide only [unbrokenAppend, inside]
  | .negate operand, worded => by
    have inside := (renderPiece operand worded).unbroken
    unfold Expr.render
    refine ⟨?_, ⟨'(', by simp, by decide⟩, ⟨')', by simp [List.getLast?_cons], by decide⟩⟩
    simp +decide only [unbrokenAppend, inside]
  | .not operand, worded => by
    have inside := (renderPiece operand worded).unbroken
    unfold Expr.render
    refine ⟨?_, ⟨'(', by simp, by decide⟩, ⟨')', by simp [List.getLast?_cons], by decide⟩⟩
    simp +decide only [unbrokenAppend, inside]
  | .binary op left right, worded => by
    have l := (renderPiece left worded.1).unbroken
    have r := (renderPiece right worded.2).unbroken
    unfold Expr.render
    refine ⟨?_, ⟨'(', by simp, by decide⟩, ⟨')', by simp [List.getLast?_cons], by decide⟩⟩
    simp +decide only [unbrokenAppend, operatorUnbroken op, l, r]
  | .and left right, worded => by
    have l := (renderPiece left worded.1).unbroken
    have r := (renderPiece right worded.2).unbroken
    unfold Expr.render
    refine ⟨?_, ⟨'(', by simp, by decide⟩, ⟨')', by simp [List.getLast?_cons], by decide⟩⟩
    simp +decide only [unbrokenAppend, l, r]
  | .or left right, worded => by
    have l := (renderPiece left worded.1).unbroken
    have r := (renderPiece right worded.2).unbroken
    unfold Expr.render
    refine ⟨?_, ⟨'(', by simp, by decide⟩, ⟨')', by simp [List.getLast?_cons], by decide⟩⟩
    simp +decide only [unbrokenAppend, l, r]
  | .cond test yes no, worded => by
    have t := (renderPiece test worded.1).unbroken
    have y := (renderPiece yes worded.2.1).unbroken
    have n := (renderPiece no worded.2.2).unbroken
    unfold Expr.render
    refine ⟨?_, ⟨'(', by simp, by decide⟩, ⟨')', by simp [List.getLast?_cons], by decide⟩⟩
    simp +decide only [unbrokenAppend, t, y, n]
  | .bind x value, worded => by
    have name := (wordPiece worded.1).unbroken
    have inside := (renderPiece value worded.2).unbroken
    unfold Expr.render
    refine ⟨?_, ⟨'(', by simp, by decide⟩, ⟨')', by simp [List.getLast?_cons], by decide⟩⟩
    simp +decide only [unbrokenAppend, name, inside]

theorem renderAllUnbroken : (es : List Expr) → WordedAll es → Unbroken (renderAll es)
  | [], _ => by decide
  | [e], worded => (renderPiece e worded.1).unbroken
  | e :: f :: rest, worded => by
    have first := (renderPiece e worded.1).unbroken
    have later := renderAllUnbroken (f :: rest) worded.2
    unfold renderAll
    simp +decide only [unbrokenAppend, first, later]

theorem renderEntriesUnbroken : (entries : List (String × Expr)) → WordedEntries entries → Unbroken (renderEntries entries)
  | [], _ => by decide
  | [(key, e)], worded => by
    have value := (renderPiece e worded.1).unbroken
    unfold renderEntries
    simp +decide only [unbrokenAppend, (quotedPiece key).unbroken, value]
  | (key, e) :: f :: rest, worded => by
    have value := (renderPiece e worded.1).unbroken
    have later := renderEntriesUnbroken (f :: rest) worded.2
    unfold renderEntries
    simp +decide only [unbrokenAppend, (quotedPiece key).unbroken, value, later]

end

/-! Statements -/

theorem intercalateUnbroken {ts : List String} (all : ∀ t ∈ ts, Unbroken t) : Unbroken (", ".intercalate ts) := by
  induction ts with
  | nil => decide
  | cons t rest ih =>
    have later := ih fun u member => all u (List.mem_cons_of_mem t member)
    by_cases last : rest = []
    · subst last
      exact all t List.mem_cons_self
    · rw [String.intercalate_cons_of_ne_nil last]
      simp +decide only [unbrokenAppend, all t List.mem_cons_self, later]

theorem intercalateEnds {ts : List String} (some : ts ≠ []) (all : ∀ t ∈ ts, Ends t) : Ends (", ".intercalate ts) := by
  induction ts with
  | nil => exact absurd rfl some
  | cons t rest ih =>
    by_cases last : rest = []
    · subst last
      exact all t List.mem_cons_self
    · rw [String.intercalate_cons_of_ne_nil last]
      exact .append _ (ih last fun u member => all u (List.mem_cons_of_mem t member))

theorem paramUnbroken {p : Param} (word : IsWord p.name) : Unbroken p.render := by
  have name := (wordPiece word).unbroken
  unfold Param.render
  split
  · exact name
  · simp +decide only [unbrokenAppend, name]
  · simp +decide only [unbrokenAppend, name]

theorem defineHeadNeat {name : String} (word : IsWord name) {params : List Param} (words : ∀ p ∈ params, IsWord p.name)
    (isAsync : Bool) : Unbroken (defineHead name isAsync params) ∧ Begins (defineHead name isAsync params) := by
  have listed : Unbroken (", ".intercalate (params.map Param.render)) := by
    refine intercalateUnbroken fun t member => ?_
    obtain ⟨p, inside, rfl⟩ := List.mem_map.mp member
    exact paramUnbroken (words p inside)
  unfold defineHead
  cases isAsync with
  | true =>
    refine ⟨?_, 'a', by simp, by decide⟩
    simp +decide only [unbrokenAppend, (wordPiece word).unbroken, listed]
  | false =>
    refine ⟨?_, 'd', by simp, by decide⟩
    simp +decide only [unbrokenAppend, (wordPiece word).unbroken, listed]

/-- A list of names behind a word. -/
theorem namesPiece {start : String} (unbroken : Unbroken start) (begins : Begins start) (ends : Ends start)
    {names : List String} (words : ∀ x ∈ names, IsWord x) : Piece (start ++ ", ".intercalate names) := by
  refine ⟨?_, begins.append _, ?_⟩
  · exact (unbrokenAppend _ _).mpr ⟨unbroken, intercalateUnbroken fun x member => (wordPiece (words x member)).unbroken⟩
  · by_cases some : names = []
    · subst some
      simpa using ends
    · exact .append _ (intercalateEnds some fun x member => (wordPiece (words x member)).ends)

/-! Lines of a text -/

theorem linesFromUnbroken {cs : List Char} (unbroken : ∀ c ∈ cs, Text.endsLine c = false) (line rest : List Char) :
    Text.linesFrom line (cs ++ '\n' :: rest) = (line.reverse ++ cs) :: Text.linesFrom [] rest := by
  induction cs generalizing line with
  | nil => simp [Text.linesFrom, Text.endsLine]
  | cons c cs ih =>
    have plain := unbroken c List.mem_cons_self
    have next := ih (fun d member => unbroken d (List.mem_cons_of_mem c member)) (c :: line)
    rw [List.cons_append, Text.linesFrom, if_neg (by simp [plain]), next]
    · simp
    · rintro _ rfl
      exact absurd plain (by decide)

/-- A line whose text does not break and begins with something other than a blank. -/
structure Line.Neat (l : Line) : Prop where
  unbroken : Unbroken l.text
  begins : Begins l.text

theorem Line.Neat.renderUnbroken {l : Line} (neat : l.Neat) : Unbroken l.render := by
  refine (unbrokenAppend _ _).mpr ⟨fun c member => ?_, neat.unbroken⟩
  rw [String.toList_ofList] at member
  exact List.eq_of_mem_replicate member ▸ by decide

/-- The lines of a text that is put together from neat lines are those. -/
theorem linesOfJoin {ls : List Line} (neat : ∀ l ∈ ls, l.Neat) :
    Text.lines (String.join (ls.map fun l => l.render ++ "\n")).toList = ls.map fun l => l.render.toList := by
  rw [String.toList_join, List.flatMap_map]
  unfold Text.lines
  induction ls with
  | nil => rfl
  | cons l ls ih =>
    have first := (neat l List.mem_cons_self).renderUnbroken
    have later := ih fun m member => neat m (List.mem_cons_of_mem l member)
    rw [List.flatMap_cons, String.toList_append, List.append_assoc]
    change Text.linesFrom [] (l.render.toList ++ '\n' :: ls.flatMap _) = _
    rw [linesFromUnbroken first, later]
    rfl

end Fragment.Target
