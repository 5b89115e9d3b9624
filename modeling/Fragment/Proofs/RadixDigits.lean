import Fragment.Proofs.NumberText
import Fragment.Value.Library
import Mathlib.Data.Nat.Digits.Defs

/-! Integers written in a base and read back.
The printer takes digits off the low end, the reader goes through them from the high end. A digit of a base is never
taken for white space, a sign or the mark of a base, so the reader sees all digits of the printer and nothing else. -/
namespace Fragment.Value

open Double (baseDigit? readInteger? takeSign spanDigits)

/-- One more digit of an integer that is read in a base. -/
def readDigit (base n : Nat) (c : Char) : Option Nat := do
  let d ← baseDigit? c
  if d < base then some (n * base + d) else none

/-- A row of digits that spells a number in a base. -/
structure Spells (base n : Nat) (cs : List Char) : Prop where
  filled : cs ≠ []
  digits : ∀ c ∈ cs, ∃ d < base, c = digitOfValue d
  value : cs.foldlM (readDigit base) 0 = some n

/-! Digits -/

section Digits

variable {base n d : Nat} {cs : List Char}

/-- A digit stands for its value only. -/
theorem digitPlain : ∀ d < 36, baseDigit? (digitOfValue d) = some d ∧
    Text.lowerChar (digitOfValue d) = [digitOfValue d] ∧
    ((digitOfValue d).isDigit || 'a' ≤ digitOfValue d && digitOfValue d ≤ 'z') = true ∧
    Text.isBlank (digitOfValue d) = false ∧ digitOfValue d ≠ '+' ∧ digitOfValue d ≠ '-' := by
  decide

/-- In bases without the letter `x` no digit belongs to the mark of a base. -/
theorem digitUnmarked : ∀ d < 33, digitOfValue d ≠ 'x' ∧ digitOfValue d ≠ 'X' := by decide

theorem digitRead (inside : d < base) (few : base ≤ 36) (m : Nat) :
    readDigit base m (digitOfValue d) = some (m * base + d) := by
  simp [readDigit, (digitPlain d (by omega)).1, inside]

theorem digitOfBase (inside : d < base) (few : base ≤ 36) : isBaseDigit base (digitOfValue d) = true := by
  obtain ⟨value, lower, sign, _⟩ := digitPlain d (by omega)
  simp [isBaseDigit, lower, sign, value, inside]

/-- A last digit behind the digits of a number. -/
theorem Spells.snoc (spells : Spells base n cs) (inside : d < base) (few : base ≤ 36) :
    Spells base (n * base + d) (cs ++ [digitOfValue d]) where
  filled := by simp
  digits c member := by
    rcases List.mem_append.mp member with front | last
    · exact spells.digits c front
    · exact ⟨d, inside, List.mem_singleton.mp last⟩
  value := by
    rw [List.foldlM_append, spells.value]
    simp [digitRead inside few]

theorem Spells.single (inside : d < base) (few : base ≤ 36) : Spells base d [digitOfValue d] where
  filled := by simp
  digits c member := ⟨d, inside, List.mem_singleton.mp member⟩
  value := by simp [digitRead inside few]

/-! Printing -/

/-- The printer needs as much fuel as the number has digits. -/
theorem wholeDigitsSpell (least : 2 ≤ base) (few : base ≤ 36) (fuel n : Nat) (rest : List Char) (more : 0 < fuel)
    (enough : n < base ^ fuel) :
    ∃ cs, wholeDigits base fuel n rest = cs ++ rest ∧ Spells base n cs ∧ cs.length ≤ fuel := by
  induction fuel generalizing n rest with
  | zero => omega
  | succ fuel ih =>
    have low : n % base < base := Nat.mod_lt _ (by omega)
    unfold wholeDigits
    dsimp only
    split
    case isTrue small =>
      have size : n < base := by
        rcases Nat.div_eq_zero_iff.mp small with zero | size
        · omega
        · exact size
      rw [Nat.mod_eq_of_lt size]
      exact ⟨[digitOfValue n], rfl, .single size few, by simp⟩
    case isFalse large =>
      have front : n / base < base ^ fuel := Nat.div_lt_of_lt_mul (by rwa [← Nat.pow_succ'])
      have more : 0 < fuel := by
        by_contra none
        rw [show fuel = 0 by omega, Nat.pow_zero] at front
        exact large (Nat.lt_one_iff.mp front)
      obtain ⟨cs, printed, spells, length⟩ := ih (n / base) (digitOfValue (n % base) :: rest) more front
      have value : n / base * base + n % base = n := by
        rw [Nat.mul_comm]
        exact Nat.div_add_mod n base
      have last := spells.snoc low few
      rw [value] at last
      exact ⟨cs ++ [digitOfValue (n % base)], by rw [printed]; simp, last, by simpa using length⟩

theorem wholeDigitsOf (least : 2 ≤ base) (few : base ≤ 36) (n : Nat) :
    Spells base n (wholeDigits base (n.log2 + 1) n []) ∧ (wholeDigits base (n.log2 + 1) n []).length ≤ n.log2 + 1 := by
  have enough : n < base ^ (n.log2 + 1) := Nat.lt_log2_self.trans_le (Nat.pow_le_pow_left least _)
  obtain ⟨cs, printed, spells, length⟩ := wholeDigitsSpell least few (n.log2 + 1) n [] (by omega) enough
  rw [printed, List.append_nil]
  exact ⟨spells, length⟩

theorem decimalDigit : ∀ d < 10, d.digitChar = digitOfValue d := by decide

theorem decimalSpell (n : Nat) : Spells 10 n (Nat.toDigits 10 n) := by
  induction n using Nat.strongRecOn with
  | ind n ih =>
    have low : n % 10 < 10 := Nat.mod_lt _ (by decide)
    rw [Nat.toDigits_eq_if (by decide)]
    split
    case isTrue small =>
      rw [decimalDigit n small]
      exact .single small (by decide)
    case isFalse large =>
      rw [decimalDigit _ low]
      have value : n / 10 * 10 + n % 10 = n := by omega
      have last := (ih (n / 10) (by omega)).snoc low (by decide)
      rwa [value] at last

/-! Reading -/

theorem Spells.plain (spells : Spells base n cs) (few : base ≤ 36) {c : Char} (member : c ∈ cs) :
    Text.isBlank c = false ∧ c ≠ '+' ∧ c ≠ '-' := by
  obtain ⟨d, inside, rfl⟩ := spells.digits c member
  exact (digitPlain d (by omega)).2.2.2

theorem Spells.integer (spells : Spells base n cs) (short : cs.length ≤ Double.integerDigitLimit) :
    readInteger? base cs = some n := by
  have few : ¬ Double.integerDigitLimit < cs.length := by omega
  rw [readInteger?, if_neg (by simp [spells.filled]), if_neg (by simp [few])]
  exact spells.value

theorem trimPlain {cs : List Char} (plain : ∀ c ∈ cs, Text.isBlank c = false) : Text.trim cs = cs := by
  have start : Text.trimStart cs = cs := by
    rw [Text.trimStart, List.dropWhile_eq_self_iff]
    intro some
    rw [plain _ (List.getElem_mem some)]
    decide
  have finish : cs.reverse.dropWhile Text.isBlank = cs.reverse := by
    rw [List.dropWhile_eq_self_iff]
    intro some
    rw [plain _ (List.mem_reverse.mp (List.getElem_mem some))]
    decide
  rw [Text.trim, start, Text.trimEnd, finish, List.reverse_reverse]

/-- Digits with a minus in front, if need be. -/
def withSign (negative : Bool) (cs : List Char) : List Char := if negative then '-' :: cs else cs

theorem Spells.trimmed (spells : Spells base n cs) (few : base ≤ 36) (negative : Bool) :
    Text.trim (withSign negative cs) = withSign negative cs := by
  refine trimPlain fun c member => ?_
  unfold withSign at member
  split at member
  · rcases List.mem_cons.mp member with rfl | digit
    · decide
    · exact (spells.plain few digit).1
  · exact (spells.plain few member).1

theorem Spells.signed (spells : Spells base n cs) (few : base ≤ 36) (negative : Bool) :
    takeSign (withSign negative cs) = (if negative then ['-'] else [], cs) := by
  cases negative with
  | true => rfl
  | false =>
    cases cs with
    | nil => rfl
    | cons c rest =>
      have plain := spells.plain few (List.mem_cons_self ..)
      simp only [withSign, takeSign]
      grind

/-- No row of digits begins with the mark of base 16, which stands in front of numbers of other bases only. -/
theorem Spells.unmarked (spells : Spells base n cs) (few : base ≤ 33) : dropHexMark cs = none := by
  unfold dropHexMark
  split
  case h_1 rest =>
    obtain ⟨d, inside, mark⟩ := spells.digits 'x' (by simp)
    exact absurd mark.symm (digitUnmarked d (by omega)).1
  case h_2 rest =>
    obtain ⟨d, inside, mark⟩ := spells.digits 'X' (by simp)
    exact absurd mark.symm (digitUnmarked d (by omega)).2
  case h_3 => rfl

theorem Spells.whole (spells : Spells base n cs) (few : base ≤ 36) : cs.takeWhile (isBaseDigit base) = cs := by
  rw [List.takeWhile_eq_self_iff]
  intro c member
  obtain ⟨d, inside, rfl⟩ := spells.digits c member
  exact digitOfBase inside few

/-! The steps of reading an integer -/

/-- The base in which an integer is read, and what is left of it: a mark stands for base 16. -/
def chosenBase (base : Whole) (cs : List Char) : Whole × List Char :=
  match base, dropHexMark cs with
  | .finite 0, some rest => (.finite 16, rest)
  | .finite 0, none => (.finite 10, cs)
  | .finite 16, some rest => (.finite 16, rest)
  | base, _ => (base, cs)

/-- The longest integer at the start, in a base. -/
def leadingInteger (sign : List Char) (base : Whole) (cs : List Char) : Except Fault Number := do
  if base.less 2 || base.greater 36 then return Number.nan
  let base := (← base.toInt).toNat
  let digits := cs.takeWhile (isBaseDigit base)
  if digits.isEmpty then return Number.nan
  match readInteger? base digits with
  | some n => return .int (if sign == ['-'] then -(n : Int) else n)
  | none => throw (Double.integerFault base digits)

theorem parseIntSteps (s : Store) (v radix : Value) : parseInt s v radix = (do
    let (sign, cs) := takeSign (Text.trim (← toText s v).toList)
    let (base, cs) := chosenBase (← toInteger s radix 0) cs
    leadingInteger sign base cs) := rfl

theorem leadingAt {b : Nat} (sign : List Char) (least : 2 ≤ b) (few : b ≤ 36) (cs : List Char) :
    leadingInteger sign (.finite b) cs =
      if (cs.takeWhile (isBaseDigit b)).isEmpty then .ok Number.nan
      else match readInteger? b (cs.takeWhile (isBaseDigit b)) with
        | some n => .ok (.int (if sign == ['-'] then -(n : Int) else n))
        | none => .error (Double.integerFault b (cs.takeWhile (isBaseDigit b))) := by
  have inside : (Whole.less (.finite b) 2 || Whole.greater (.finite b) 36) = false := by
    simp [Whole.less, Whole.greater]
    omega
  simp only [leadingInteger, inside, Bool.false_eq_true, if_false, Whole.toInt, Int.toNat_natCast, bind, Except.bind]
  split
  · rfl
  · split <;> rfl

/-- What is read in a base, or without one in base 10, if no mark is in front. -/
theorem chosenUnmarked {b : Nat} {given : Whole} {cs : List Char} (least : 2 ≤ b)
    (unmarked : b = 10 ∨ b = 16 → dropHexMark cs = none) (counts : given = .finite b ∨ given = .finite 0 ∧ b = 10) : chosenBase given cs = (.finite b, cs) := by
  obtain rfl | ⟨rfl, rfl⟩ := counts
  · unfold chosenBase
    split <;> grind
  · unfold chosenBase
    simp [unmarked]

theorem Spells.parses (s : Store) (spells : Spells base n cs) (least : 2 ≤ base) (few : base ≤ 36)
    (short : cs.length ≤ Double.integerDigitLimit) (negative : Bool) {radix : Value} {given : Whole}
    (asked : toInteger s radix 0 = .ok given) (counts : given = .finite base ∨ given = .finite 0 ∧ base = 10) :
    parseInt s (.text (String.ofList (withSign negative cs))) radix = .ok (.int (if negative then -(n : Int) else n)) := by
  have text : toText s (.text (String.ofList (withSign negative cs))) = .ok (String.ofList (withSign negative cs)) := rfl
  have digits : cs.isEmpty = false := by simp [spells.filled]
  have sign : ((if negative then ['-'] else []) == ['-']) = negative := by cases negative <;> rfl
  have unmarked : base = 10 ∨ base = 16 → dropHexMark cs = none := fun _ => spells.unmarked (by omega)
  simp only [parseIntSteps, text, asked, String.toList_ofList, spells.trimmed few, spells.signed few, bind, Except.bind,
    chosenUnmarked least unmarked counts, leadingAt _ least few, spells.whole few, digits, spells.integer short, sign]
  rfl

/-! Integers -/

theorem shownInt (n : Int) : toString n = String.ofList (withSign (n < 0) (Nat.toDigits 10 n.natAbs)) := by
  cases n with
  | ofNat n => rfl
  | negSucc n =>
    have minus : Int.negSucc n < 0 := Int.negSucc_lt_zero n
    have shown : toString (Int.negSucc n) = "-" ++ toString (n + 1) := rfl
    refine String.toList_inj.mp ?_
    simp [shown, minus, withSign]

/-- Integers that are printed in full. -/
theorem fullSize {k : Nat} (small : k < 10 ^ 21) : k.log2 < 70 := by
  by_cases none : k = 0
  · subst none
    decide
  · exact (Nat.log2_lt none).mpr (by omega)

theorem sourceTextInt {n : Int} (small : n.natAbs < 10 ^ 21) : (Number.int n).sourceText = .ok (toString n) := by
  rw [Number.sourceText, if_pos (by simpa using small)]

/-- The text of an integer in a base: its digits, and a minus in front of a negative one. -/
theorem radixTextInt (s : Store) {radix : Value} {n : Int} (small : n.natAbs < 10 ^ 21)
    (asked : toInteger s radix 10 = .ok (.finite base)) (least : 2 ≤ base) (few : base ≤ 36) :
    ∃ cs, radixText s (.int n) radix = .ok (String.ofList (withSign (n < 0) cs)) ∧ Spells base n.natAbs cs ∧
      cs.length ≤ Double.integerDigitLimit := by
  have inside : (Whole.less (.finite base) 2 || Whole.greater (.finite base) 36) = false := by
    simp [Whole.less, Whole.greater]
    omega
  have size := fullSize small
  obtain ⟨x, converted⟩ := Number.toFloatFits (Number.smallFits (n := n) (by omega))
  by_cases ten : base = 10
  · subst ten
    refine ⟨Nat.toDigits 10 n.natAbs, ?_, decimalSpell _, ?_⟩
    · simp only [radixText, asked, inside, Whole.toInt, bind, Except.bind, pure, Except.pure, Bool.false_eq_true, if_false]
      rw [← shownInt, ← sourceTextInt small]
      rfl
    · have length : (Nat.toDigits 10 n.natAbs).length ≤ 21 := Nat.toDigits_length _ _ _ (by decide) small
      exact length.trans (by decide)
  · obtain ⟨spells, length⟩ := wholeDigitsOf least few n.natAbs
    refine ⟨_, ?_, spells, length.trans (by simp [Double.integerDigitLimit]; omega)⟩
    have zero : ((0.0 : Float) == 0.0) = true := by decide
    have below : (Number.int n).isBelowZero = decide (n < 0) := by
      rw [Number.isBelowZero, Number.less, Number.compare?, Bool.eq_iff_iff, beq_iff_eq, Option.some_inj,
        Int.compare_eq_lt, decide_eq_true_eq]
    simp only [radixText, asked, inside, Whole.toInt, bind, Except.bind, pure, Except.pure, Bool.false_eq_true, if_false,
      ten, Int.toNat_natCast, Number.isNaN, Number.isInfinite, converted, Number.abs, zero, if_true, below]
    rw [if_neg (by simp [Number.convertedFinite converted])]
    rfl

/-! Decimal texts -/

theorem decimalValue : ∀ d < 10, Text.digitValue? (digitOfValue d) = some d := by decide

theorem Spells.decimal (spells : Spells 10 n cs) : cs.all Text.isDecimalDigit = true := by
  refine List.all_eq_true.mpr fun c member => ?_
  obtain ⟨d, inside, rfl⟩ := spells.digits c member
  simp [Text.isDecimalDigit, decimalValue d inside]

theorem Spells.digitsValue (spells : Spells 10 n cs) (short : cs.length ≤ Double.integerDigitLimit) :
    Double.digitsValue cs = n := by
  have read := spells.integer short
  rwa [Double.readDecimal spells.filled spells.decimal, if_neg (by omega), Option.some_inj] at read

/-- A decimal text has the number that its digits spell. -/
theorem Spells.number (spells : Spells 10 n cs) (short : cs.length ≤ Double.integerDigitLimit) (negative : Bool) :
    numberOfText (String.ofList (withSign negative cs)) = .ok (.int (if negative then -(n : Int) else n)) := by
  have trimmed : Text.trim (String.ofList (withSign negative cs)).toList = (if negative then ['-'] else []) ++ cs := by
    rw [String.toList_ofList, spells.trimmed (by decide)]
    cases negative <;> rfl
  have is : Double.IsSign (if negative then ['-'] else []) := by
    cases negative
    · exact .inl rfl
    · exact .inr (.inr rfl)
  rw [numberOfInteger is spells.filled spells.decimal trimmed, if_neg (by omega), spells.digitsValue short]
  cases negative <;> rfl

end Digits

/-! Round trips -/

section Integers

variable (s : Store) {n : Int}

theorem signedSize (n : Int) : (if decide (n < 0) = true then -(n.natAbs : Int) else n.natAbs) = n := by
  by_cases minus : n < 0
  · rw [if_pos (decide_eq_true minus)]
    omega
  · rw [if_neg (by simpa using minus)]
    omega

/-- A radix that is not given stands for 10, and the reader takes it so unless the text has a mark. -/
theorem radixAsked {radix : Value} {r : Nat} (asked : toInteger s radix 10 = .ok (.finite r)) :
    ∃ given, toInteger s radix 0 = .ok given ∧ (given = .finite r ∨ given = .finite 0 ∧ r = 10) := by
  cases radix with
  | undefined =>
    have ten : (10 : Int) = r := by simpa [toInteger] using asked
    exact ⟨.finite 0, rfl, .inr ⟨rfl, by omega⟩⟩
  | _ => exact ⟨_, asked, .inl rfl⟩

theorem radixReadsBack {radix : Value} {r : Nat} (small : n.natAbs < 10 ^ 21)
    (asked : toInteger s radix 10 = .ok (.finite r)) (least : 2 ≤ r) (few : r ≤ 36) :
    ∃ t, radixText s (.int n) radix = .ok t ∧ parseInt s (.text t) radix = .ok (.int n) := by
  obtain ⟨cs, printed, spells, short⟩ := radixTextInt s small asked least few
  obtain ⟨given, read, counts⟩ := radixAsked s asked
  refine ⟨_, printed, ?_⟩
  rw [spells.parses s least few short (n < 0) read counts, signedSize]

theorem decimalReadsBack (small : n.natAbs < 10 ^ 21) :
    ∃ t, (Number.int n).sourceText = .ok t ∧ toNumber s (.text t) = .ok (.int n) := by
  have short : (Nat.toDigits 10 n.natAbs).length ≤ Double.integerDigitLimit :=
    (Nat.toDigits_length _ _ _ (by decide) small).trans (by decide)
  refine ⟨toString n, sourceTextInt small, ?_⟩
  rw [toNumber, shownInt, (decimalSpell n.natAbs).number short, signedSize]

theorem integerAsked (r : Nat) (few : r ≤ 36) : toInteger s (.int r) 10 = .ok (.finite r) := by
  have size : (r : Int).natAbs.log2 < 1023 := by
    by_cases none : r = 0
    · subst none
      decide
    · exact ((Nat.log2_lt (by omega)).mpr (show (r : Int).natAbs < 2 ^ 6 by omega)).trans (by decide)
  obtain ⟨x, converted⟩ := Number.toFloatFits (Number.smallFits size)
  have steps : toInteger s (.int r) 10 = (Number.int r).toFloat >>= fun _ => .ok (.finite r) := rfl
  rw [steps, converted]
  rfl

end Integers

/-- An integer that is printed in full is read back from its text in every base, and from its decimal text also as the
number of that text. -/
theorem integersReadBack (s : Store) (n : Int) (small : n.natAbs < 10 ^ 21) :
    (∀ r : Nat, 2 ≤ r → r ≤ 36 →
      ∃ t, radixText s (.int n) (.int r) = .ok t ∧ parseInt s (.text t) (.int r) = .ok (.int n)) ∧
    ∃ t, (Number.int n).sourceText = .ok t ∧ toNumber s (.text t) = .ok (.int n) := by
  refine ⟨fun r least few => ?_, decimalReadsBack s small⟩
  exact radixReadsBack s small (integerAsked s r few) least few

/-- In base 36, where `x` is a digit, 1185 is written `wx`. -/
theorem letteredReadsBack : (-1185 : Int).natAbs < 10 ^ 21 ∧
    ∃ t, radixText {} (.int (-1185)) (.int 36) = .ok t ∧ parseInt {} (.text t) (.int 36) = .ok (.int (-1185)) :=
  ⟨by decide, (integersReadBack {} (-1185) (by decide)).1 36 (by decide) (by decide)⟩

end Fragment.Value
