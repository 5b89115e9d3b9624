import Fragment.Proofs.DoubleRange
import Fragment.Value.Convert

/-! Numbers in texts.
The number of a text is the one that it spells between its white space. A text that spells none has one all the same;
only a decimal integer may be refused, and it is exactly if it has too many digits. -/
namespace Fragment.Double

open Text (isDecimalDigit digitValue? isBlank)

variable {cs ds rest sign : List Char} {c : Char} {d : Nat}

/-! Decimal digits -/

theorem digitCases (value : digitValue? c = some d) :
    (48 ≤ c.toNat ∧ c.toNat ≤ 57 ∧ d = c.toNat - 48) ∨ ∃ base ∈ Text.digitZeros, c.toNat = base + d ∧ d < 10 := by
  unfold digitValue? at value
  split at value
  · split at value
    case isTrue digit =>
      simp only [Char.isDigit, Bool.and_eq_true, decide_eq_true_eq, ge_iff_le, UInt32.le_iff_toNat_le] at digit
      exact .inl ⟨digit.1, digit.2, (Option.some_inj.mp value).symm⟩
    case isFalse => cases value
  · obtain ⟨base, found, rfl⟩ := Option.map_eq_some_iff.mp value
    have inside := Array.find?_some found
    simp only [Bool.and_eq_true, decide_eq_true_eq] at inside
    exact .inr ⟨base, Array.mem_of_find?_eq_some found, by omega, by omega⟩

theorem zerosHigh : ∀ base ∈ Text.digitZeros, 0x660 ≤ base := by decide

theorem digitSmall (value : digitValue? c = some d) : d < 10 := by
  obtain ⟨low, high, rfl⟩ | ⟨base, _, _, small⟩ := digitCases value <;> omega

theorem baseOfDecimal (value : digitValue? c = some d) : baseDigit? c = some d := by
  have code : c.toNat < 65 ∨ 122 < c.toNat := by
    obtain ⟨low, high, rfl⟩ | ⟨base, zero, place, small⟩ := digitCases value
    · omega
    · have := zerosHigh base zero
      omega
  have letter (a b : Char) (first : 65 ≤ a.toNat) (last : b.toNat ≤ 122) : ¬ (decide (a ≤ c) && decide (c ≤ b)) = true := by
    simp only [Bool.and_eq_true, decide_eq_true_eq, Char.le_def, UInt32.le_iff_toNat_le]
    change ¬ (a.toNat ≤ c.toNat ∧ c.toNat ≤ b.toNat)
    omega
  rw [baseDigit?, if_neg (letter 'a' 'z' (by decide) (by decide)), if_neg (letter 'A' 'Z' (by decide) (by decide)), value]

theorem zerosNoBlank : ∀ base ∈ Text.digitZeros, ∀ d < 10, isBlank (Char.ofNat (base + d)) = false := by decide

theorem decimalNoBlank (decimal : isDecimalDigit c = true) : isBlank c = false := by
  obtain ⟨d, value⟩ := Option.isSome_iff_exists.mp decimal
  obtain ⟨low, high, _⟩ | ⟨base, zero, place, small⟩ := digitCases value
  · simp [isBlank]
    omega
  · rw [← Char.ofNat_toNat c, place]
    exact zerosNoBlank base zero d small

/-- Digits are read with their full value, as long as there are not too many of them. -/
theorem readDecimal (some : ds ≠ []) (digits : ds.all isDecimalDigit = true) :
    readInteger? 10 ds = if integerDigitLimit < ds.length then none else .some (digitsValue ds) := by
  have reads (n : Nat) : ds.foldlM (fun n c => do
      let d ← baseDigit? c
      if d < 10 then Option.some (n * 10 + d) else none) n =
      .some (ds.foldl (fun n c => n * 10 + (digitValue? c).getD 0) n) := by
    clear some
    induction ds generalizing n with
    | nil => rfl
    | cons c ds ih =>
      simp only [List.all_cons, Bool.and_eq_true] at digits
      obtain ⟨d, value⟩ := Option.isSome_iff_exists.mp digits.1
      have step : (do
          let d ← baseDigit? c
          if d < 10 then Option.some (n * 10 + d) else none) = .some (n * 10 + d) := by
        simp [baseOfDecimal value, digitSmall value]
      rw [List.foldlM_cons, step, List.foldl_cons, value]
      exact ih digits.2 _
  have limited : (decide (integerDigitLimit < ds.length) && !([2, 4, 8, 16, 32].contains 10)) =
      decide (integerDigitLimit < ds.length) := by simp
  rw [readInteger?, if_neg (by simpa using some), limited]
  simp only [decide_eq_true_eq]
  split
  · rfl
  · exact reads 0

/-! Parts of a number -/

/-- A sign, or none. -/
def IsSign (sign : List Char) : Prop := sign = [] ∨ sign = ['+'] ∨ sign = ['-']

theorem takeSignParts (cs : List Char) : IsSign (takeSign cs).1 ∧ (takeSign cs).1 ++ (takeSign cs).2 = cs := by
  unfold takeSign
  split
  · exact ⟨.inr (.inl rfl), rfl⟩
  · exact ⟨.inr (.inr rfl), rfl⟩
  · exact ⟨.inl rfl, rfl⟩

theorem takeSignDigits (is : IsSign sign) (some : ds ≠ []) (digits : ds.all isDecimalDigit = true) (rest : List Char) :
    takeSign (sign ++ (ds ++ rest)) = (sign, ds ++ rest) := by
  obtain rfl | rfl | rfl := is
  · cases ds with
    | nil => exact absurd rfl some
    | cons c ds =>
      simp only [List.all_cons, Bool.and_eq_true] at digits
      unfold takeSign
      split
      case h_1 same =>
        cases same
        exact absurd digits.1 (by decide)
      case h_2 same =>
        cases same
        exact absurd digits.1 (by decide)
      case h_3 => rfl
  · rfl
  · rfl

theorem spanParts (cs : List Char) : (spanDigits cs).1.all isDecimalDigit = true ∧ (spanDigits cs).1 ++ (spanDigits cs).2 = cs ∧
    ∀ c ∈ (spanDigits cs).2.head?, isDecimalDigit c = false := by
  rw [spanDigits, List.span_eq_takeWhile_dropWhile]
  refine ⟨List.all_takeWhile, List.takeWhile_append_dropWhile, fun c first => ?_⟩
  have stops := List.head?_dropWhile_not isDecimalDigit cs
  rw [Option.mem_def.mp first] at stops
  simpa using stops

theorem spanWhole (digits : ds.all isDecimalDigit = true) (ends : ∀ c ∈ rest.head?, isDecimalDigit c = false) :
    spanDigits (ds ++ rest) = (ds, rest) := by
  have none : rest.takeWhile isDecimalDigit = [] ∧ rest.dropWhile isDecimalDigit = rest := by
    cases rest with
    | nil => exact ⟨rfl, rfl⟩
    | cons c rest => simp [ends c (by simp)]
  rw [spanDigits, List.span_eq_takeWhile_dropWhile, List.takeWhile_append_of_pos (List.all_eq_true.mp digits),
    List.dropWhile_append_of_pos (List.all_eq_true.mp digits), none.1, none.2, List.append_nil]

theorem takeExponentParts (cs : List Char) : (takeExponent cs).1 ++ (takeExponent cs).2 = cs ∧
    ∀ c ∈ (takeExponent cs).1.head?, isDecimalDigit c = false := by
  cases cs with
  | nil => simp [takeExponent]
  | cons c cs =>
    simp only [takeExponent]
    split
    case isTrue mark =>
      split
      · simp
      · have signed := (takeSignParts cs).2
        have digits := (spanParts (takeSign cs).2).2.1
        refine ⟨by simp only [List.cons_append, List.append_assoc, digits, signed], ?_⟩
        simp only [Bool.or_eq_true, decide_eq_true_eq] at mark
        rcases mark with rfl | rfl <;> simp <;> decide
    case isFalse => simp

/-- What stands behind an integer: neither a digit nor a fraction or an exponent. -/
def EndsInteger (rest : List Char) : Prop :=
  (∀ c ∈ rest.head?, isDecimalDigit c = false ∧ c ≠ '.') ∧ (takeExponent rest).1 = []

theorem endsNothing : EndsInteger [] := ⟨by simp, rfl⟩

/-- The longest number at the start is an integer if nothing goes on behind its digits. -/
theorem takeInteger (some : ds ≠ []) (digits : ds.all isDecimalDigit = true) (ends : EndsInteger rest) :
    takeUnsigned (ds ++ rest) = (ds, rest) := by
  have tail : takeExponent rest = ([], rest) := by
    have parts := (takeExponentParts rest).1
    rw [ends.2, List.nil_append] at parts
    exact Prod.ext ends.2 parts
  have filled : ds.isEmpty = false := by simpa using some
  simp only [takeUnsigned, spanWhole digits fun c first => (ends.1 c first).1, filled, Bool.false_eq_true, if_false]
  cases rest with
  | nil => simp [tail]
  | cons c rest =>
    have point := (ends.1 c (by simp)).2
    simp [point, tail]

/-- A longest number without anything but digits is an integer. -/
theorem integerTaken (some : (takeUnsigned cs).1 ≠ []) (digits : (takeUnsigned cs).1.all isDecimalDigit = true) :
    (takeUnsigned cs).1 ++ (takeUnsigned cs).2 = cs ∧ EndsInteger (takeUnsigned cs).2 := by
  obtain ⟨_, joined, stops⟩ := spanParts cs
  generalize whole : spanDigits cs = parts at joined stops
  obtain ⟨front, rest⟩ := parts
  have pointOther : isDecimalDigit '.' = false := by decide
  by_cases empty : front.isEmpty = true
  · refine absurd ?_ some
    cases rest with
    | nil => simp [takeUnsigned, whole, empty]
    | cons c tail =>
      by_cases point : c = '.'
      · subst point
        simp only [takeUnsigned, whole, empty, if_true] at digits ⊢
        split
        case isTrue => rfl
        case isFalse filled => simp [filled, pointOther] at digits
      · simp [takeUnsigned, whole, empty, point]
  · cases rest with
    | nil => simpa [takeUnsigned, whole, empty, takeExponent, endsNothing] using joined
    | cons c tail =>
      by_cases point : c = '.'
      · subst point
        simp [takeUnsigned, whole, empty, pointOther] at digits
      · obtain ⟨split, other⟩ := takeExponentParts (c :: tail)
        have taken : takeUnsigned cs = (front ++ (takeExponent (c :: tail)).1, (takeExponent (c :: tail)).2) := by
          simp [takeUnsigned, whole, empty, point]
        have none : (takeExponent (c :: tail)).1 = [] := by
          cases exponent : (takeExponent (c :: tail)).1 with
          | nil => rfl
          | cons e rest =>
            have mark : isDecimalDigit e = false := other e (by rw [exponent]; rfl)
            simp [taken, exponent, mark] at digits
        rw [none, List.nil_append] at split
        rw [taken, none, List.append_nil, split]
        refine ⟨joined, fun d first => ?_, none⟩
        have same : d = c := by simpa using first.symm
        exact ⟨stops d first, same ▸ point⟩

end Fragment.Double

namespace Fragment.Value

open Double (IsSign digitsValue integerDigitLimit takeSign takeUnsigned)
open Text (isDecimalDigit)

variable {cs ds sign : List Char} {t : String}

/-- A decimal integer with more digits than are read. -/
def LongInteger (cs : List Char) : Prop :=
  ∃ sign ds, IsSign sign ∧ cs = sign ++ ds ∧ ds.all isDecimalDigit = true ∧ integerDigitLimit < ds.length

theorem radixNumberDigits (digits : ds.all isDecimalDigit = true) : radixNumber? ds = none := by
  cases ds with
  | nil => rfl
  | cons c ds =>
    simp only [List.all_cons, Bool.and_eq_true] at digits
    have other (letter : Char) (mark : isDecimalDigit letter = false) : c ≠ letter := by
      rintro rfl
      rw [mark] at digits
      exact absurd digits.1 (by decide)
    simp [radixNumber?, other 'x' (by decide), other 'X' (by decide), other 'o' (by decide), other 'O' (by decide),
      other 'b' (by decide), other 'B' (by decide)]

/-- Reads an integer behind the mark of its base. -/
def markedNumber? : List Char → Option (Option Nat)
  | '0' :: rest => radixNumber? rest
  | _ => none

theorem numberOfTextSteps (t : String) : numberOfText t =
    (let cs := Text.trim t.toList
    let spelled := String.ofList cs
    if cs.isEmpty then .ok (.int 0)
    else if spelled = "Infinity" || spelled = "+Infinity" then .ok (Number.infinity false)
    else if spelled = "-Infinity" then .ok (Number.infinity true)
    else match markedNumber? cs with
      | some (some n) => .ok (.int n)
      | some none => .ok Number.nan
      | none => (decimalNumber? cs).getD (.ok Number.nan)) := rfl

theorem markedDigits (is : IsSign sign) (digits : ds.all isDecimalDigit = true) : markedNumber? (sign ++ ds) = none := by
  unfold markedNumber?
  split
  case h_1 rest same =>
    obtain rfl | rfl | rfl := is
    · rw [List.nil_append] at same
      subst same
      simp only [List.all_cons, Bool.and_eq_true] at digits
      exact radixNumberDigits digits.2
    · cases same
    · cases same
  case h_2 => rfl

/-- Digits with a sign, or without one, are the integer that they spell, if it is not too long. -/
theorem numberOfInteger (is : IsSign sign) (some : ds ≠ []) (digits : ds.all isDecimalDigit = true)
    (trimmed : Text.trim t.toList = sign ++ ds) :
    numberOfText t =
      if integerDigitLimit < ds.length then .error (Double.integerFault 10 ds)
      else .ok (.int (if sign == ['-'] then -(digitsValue ds : Int) else digitsValue ds)) := by
  have letters : 'I' ∉ sign ++ ds := by
    intro member
    rcases List.mem_append.mp member with front | back
    · obtain rfl | rfl | rfl := is <;> simp at front
    · exact absurd (List.all_eq_true.mp digits 'I' back) (by decide)
  have word (name : String) (has : 'I' ∈ name.toList) : String.ofList (sign ++ ds) ≠ name := by
    rintro rfl
    rw [String.toList_ofList] at has
    exact letters has
  have filled : (sign ++ ds).isEmpty = false := by simp [some]
  have signed : takeSign (sign ++ ds) = (sign, ds) := by simpa using Double.takeSignDigits is some digits []
  have taken : takeUnsigned ds = (ds, []) := by simpa using Double.takeInteger some digits Double.endsNothing
  have read := Double.readDecimal some digits
  have spelled : ds.isEmpty = false := by simpa using some
  simp only [numberOfTextSteps, trimmed, filled, word "Infinity" (by decide), word "+Infinity" (by decide),
    word "-Infinity" (by decide), markedDigits is digits, decimalNumber?, signed, taken, digits, read, spelled]
  by_cases long : integerDigitLimit < ds.length
  · simp [long]
  · simp [long]

theorem decimalFails {f : Fault} (failed : decimalNumber? cs = some (.error f)) : LongInteger cs := by
  obtain ⟨is, joined⟩ := Double.takeSignParts cs
  simp only [decimalNumber?] at failed
  split at failed
  · cases failed
  case isFalse filled =>
    simp only [Bool.or_eq_true, List.isEmpty_iff, Bool.not_eq_true', not_or, Bool.not_eq_false] at filled
    split at failed
    case isTrue digits =>
      have whole := (Double.integerTaken filled.1 digits).1
      rw [filled.2, List.append_nil] at whole
      rw [whole] at digits failed filled
      rw [Double.readDecimal filled.1 digits] at failed
      refine ⟨_, _, is, joined.symm, digits, ?_⟩
      by_contra short
      simp [short] at failed
    case isFalse => cases failed

/-- A text has a number, unless it is too long an integer. -/
theorem numberOfTextFails (t : String) : (∃ f, numberOfText t = .error f) ↔ LongInteger (Text.trim t.toList) := by
  constructor
  · rintro ⟨f, failed⟩
    simp only [numberOfTextSteps] at failed
    split at failed
    · cases failed
    split at failed
    · cases failed
    split at failed
    · cases failed
    split at failed
    · cases failed
    · cases failed
    · cases decimal : decimalNumber? (Text.trim t.toList) with
      | none =>
        rw [decimal] at failed
        cases failed
      | some reply =>
        rw [decimal, Option.getD_some] at failed
        exact decimalFails (failed ▸ decimal)
  · rintro ⟨sign, ds, is, trimmed, digits, long⟩
    have some : ds ≠ [] := by
      rintro rfl
      simp at long
    exact ⟨_, by rw [numberOfInteger is some digits trimmed, if_pos long]⟩

end Fragment.Value
