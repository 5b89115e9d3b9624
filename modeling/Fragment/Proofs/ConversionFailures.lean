import Fragment.Proofs.NestedTexts

/-! Conversions that fail.
A value of running code has a text, a number and a truth value with few exceptions, and these are the same everywhere:
an integer that has no nearest double, and a row of digits that is too long to be read as an integer. One letter beside
them counts as a digit of a base and is not read as one. -/
namespace Fragment.Value

open Double (IsSign EndsInteger baseDigit? readInteger? integerDigitLimit takeSign takeUnsigned takeExponent spanDigits)
open Text (isDecimalDigit isBlank)

/-! Numbers -/

section Numbers

variable {s : Store} {v : Value} {k : Number} {f : Fault}

theorem truncatedFails : (∃ f, truncated k = .error f) ↔ k.fits = false := by
  cases k with
  | int n =>
    cases fits : (Number.int n).fits with
    | true =>
      obtain ⟨x, found⟩ := Number.toFloatFits fits
      simp [truncated, found, bind, Except.bind, pure, Except.pure]
    | false => simp [truncated, Number.toFloatBeyond fits, bind, Except.bind]
  | float x =>
    simp only [truncated, Number.fits]
    cases Double.floatKind x <;> simp

theorem beyondNonzero (beyond : k.fits = false) : k.isZero = false := by
  cases k with
  | float x => cases beyond
  | int n =>
    have some : n ≠ 0 := by
      rintro rfl
      rw [Number.smallFits (by decide)] at beyond
      cases beyond
    simpa [Number.isZero, Number.equals, Number.compare?] using some

theorem numberNaN : k.isNaN = .error f ↔ f = .overflow ∧ k.fits = false := by
  cases k with
  | float x => simp [Number.isNaN, Number.fits]
  | int n =>
    cases fits : (Number.int n).fits with
    | true =>
      obtain ⟨x, found⟩ := Number.toFloatFits fits
      simp [Number.isNaN, found, bind, Except.bind, pure, Except.pure]
    | false => simp [Number.isNaN, Number.toFloatBeyond fits, bind, Except.bind, eq_comm]

/-- Only an integer without a nearest double has no truth value. -/
theorem truthFails : truthy v = .error f ↔ f = .overflow ∧ ∃ k, v = .number k ∧ k.fits = false := by
  cases v with
  | number k =>
    have asked : truthy (.number k) = .error f ↔ k.isZero = false ∧ k.isNaN = .error f := by
      unfold truthy
      simp only [bind, Except.bind, pure, Except.pure]
      cases k.isZero <;> cases k.isNaN <;> simp
    rw [asked, numberNaN]
    constructor
    · rintro ⟨-, rfl, beyond⟩
      exact ⟨rfl, k, rfl, beyond⟩
    · rintro ⟨rfl, _, same, beyond⟩
      cases same
      exact ⟨beyondNonzero beyond, rfl, beyond⟩
  | _ =>
    unfold truthy
    simp

/-- A text, or an array, which counts as its text. -/
def countsAsText : Value → Bool
  | .text _ | .array _ => true
  | _ => false

/-- A value without a number: too long an integer in a text, or an array without a text. -/
def Unnumbered (s : Store) (v : Value) : Prop :=
  v.countsAsText = true ∧ (Oversized s v ∨ ∃ t, toText s v = .ok t ∧ LongInteger (Text.trim t.toList))

theorem textNumber (spelled : v.countsAsText = true) : toNumber s v = (do numberOfText (← toText s v)) := by
  cases v <;> first
    | rfl
    | cases spelled

theorem numberFails (nested : Nested s v) : (∃ f, toNumber s v = .error f) ↔ Unnumbered s v := by
  unfold Unnumbered
  cases spelled : v.countsAsText with
  | true =>
    rw [textNumber spelled]
    cases found : toText s v with
    | error f => simp [((textFails nested).mp found).2, bind, Except.bind]
    | ok t =>
      simp [textWhole nested found, ← numberOfTextFails, bind, Except.bind]
  | false =>
    simp only [Bool.false_eq_true, false_and, iff_false, not_exists]
    cases v with
    | text | array => cases spelled
    | _ => exact nofun

/-- A value that cannot be cut off to an integer. -/
def Uncounted (s : Store) (v : Value) : Prop :=
  v.kind ≠ .undefined ∧ (Unnumbered s v ∨ ∃ k, toNumber s v = .ok k ∧ k.fits = false)

theorem integerFails (nested : Nested s v) {default : Int} : (∃ f, toInteger s v default = .error f) ↔ Uncounted s v := by
  unfold Uncounted
  rw [← numberFails nested]
  have steps (some : v.kind ≠ .undefined) : toInteger s v default = (do truncated (← toNumber s v)) := by
    cases v <;> first
      | rfl
      | exact absurd rfl some
  by_cases undefined : v.kind = .undefined
  · have same : v = .undefined := by
      cases v <;> first
        | rfl
        | cases undefined
    simp [same, toInteger, kind]
  · rw [steps undefined]
    cases number : toNumber s v with
    | error f => simp [undefined, bind, Except.bind]
    | ok k => simp [undefined, ← truncatedFails, bind, Except.bind]

end Numbers

/-! Numbers at the start of texts -/

section Leading

variable {s : Store} {v : Value} {cs ds rest sign : List Char} {c : Char}

/-- A decimal integer at the start, with more digits than are read and neither a fraction nor an exponent. -/
def LongLeading (cs : List Char) : Prop :=
  ∃ sign ds rest, IsSign sign ∧ cs = sign ++ (ds ++ rest) ∧ ds.all isDecimalDigit = true ∧ integerDigitLimit < ds.length ∧
    EndsInteger rest

theorem digitsPlain (digits : ds.all isDecimalDigit = true) (member : c ∈ ds) : isBlank c = false :=
  Double.decimalNoBlank (List.all_eq_true.mp digits c member)

theorem signPlain (is : IsSign sign) (member : c ∈ sign) : isBlank c = false := by
  obtain rfl | rfl | rfl := is
  · cases member
  · obtain rfl := List.mem_singleton.mp member
    decide
  · obtain rfl := List.mem_singleton.mp member
    decide

theorem exponentPlain (member : c ∈ (takeExponent cs).1) : isBlank c = false := by
  cases cs with
  | nil => simp [takeExponent] at member
  | cons e cs =>
    simp only [takeExponent] at member
    split at member
    case isTrue mark =>
      split at member
      · cases member
      · simp only [List.cons_append, List.mem_cons, List.mem_append] at member
        rcases member with rfl | signed | digit
        · simp only [Bool.or_eq_true, decide_eq_true_eq] at mark
          rcases mark with rfl | rfl <;> decide
        · exact signPlain (Double.takeSignParts cs).1 signed
        · exact digitsPlain (Double.spanParts _).1 digit
    case isFalse => cases member

theorem unsignedPlain (member : c ∈ (takeUnsigned cs).1) : isBlank c = false := by
  have point : isBlank '.' = false := by decide
  unfold takeUnsigned at member
  dsimp only at member
  split at member
  case isTrue =>
    split at member
    case h_1 tail =>
      split at member
      · cases member
      · simp only [List.cons_append, List.mem_cons, List.mem_append] at member
        rcases member with rfl | digit | exponent
        · exact point
        · exact digitsPlain (Double.spanParts _).1 digit
        · exact exponentPlain exponent
    case h_2 => cases member
  case isFalse =>
    simp only [List.mem_append] at member
    rcases member with (digit | part) | exponent
    · exact digitsPlain (Double.spanParts _).1 digit
    · split at part
      · simp only [List.mem_cons] at part
        rcases part with rfl | digit
        · exact point
        · exact digitsPlain (Double.spanParts _).1 digit
      · cases part
    · exact exponentPlain exponent

theorem unsignedHead (first : c ∈ (takeUnsigned cs).1.head?) : isDecimalDigit c = true ∨ c = '.' := by
  unfold takeUnsigned at first
  dsimp only at first
  split at first
  case isTrue =>
    split at first
    case h_1 tail =>
      split at first
      · cases first
      · exact .inr (by simpa using first.symm)
    case h_2 => cases first
  case isFalse filled =>
    have digits := (Double.spanParts cs).1
    cases whole : (spanDigits cs).1 with
    | nil => exact absurd (by rw [whole]; rfl) filled
    | cons d ds =>
      simp only [whole, List.cons_append, List.head?_cons, Option.mem_some_iff] at first
      subst first
      rw [whole, List.all_cons, Bool.and_eq_true] at digits
      exact .inl digits.1

/-- What is taken off the start begins with the same sign. -/
theorem signTaken (cs : List Char) : takeSign ((takeSign cs).1 ++ (takeUnsigned (takeSign cs).2).1) =
    ((takeSign cs).1, (takeUnsigned (takeSign cs).2).1) := by
  have unsigned (cs : List Char) : takeSign (takeUnsigned cs).1 = ([], (takeUnsigned cs).1) := by
    have head := @unsignedHead cs
    generalize (takeUnsigned cs).1 = spelled at head
    unfold takeSign
    split
    case h_1 => exact absurd (head (c := '+') (by simp)) (by decide)
    case h_2 => exact absurd (head (c := '-') (by simp)) (by decide)
    case h_3 => rfl
  have is := (Double.takeSignParts cs).1
  generalize takeSign cs = parts at is
  obtain ⟨sign, rest⟩ := parts
  obtain rfl | rfl | rfl := is
  · exact unsigned rest
  · rfl
  · rfl

theorem leadingFails : (∃ f, numberOfText (String.ofList ((takeSign cs).1 ++ (takeUnsigned (takeSign cs).2).1)) = .error f) ↔
    LongLeading cs := by
  have parts := Double.takeSignParts cs
  rw [numberOfTextFails, String.toList_ofList, trimPlain fun c member => by
    rcases List.mem_append.mp member with signed | unsigned
    · exact signPlain parts.1 signed
    · exact unsignedPlain unsigned]
  constructor
  · rintro ⟨sign, ds, is, same, digits, long⟩
    have some : ds ≠ [] := by
      rintro rfl
      exact absurd long (by decide)
    have taken := signTaken cs
    have whole := Double.takeSignDigits is some digits []
    rw [List.append_nil] at whole
    rw [same, whole, Prod.mk.injEq] at taken
    obtain ⟨front, back⟩ := taken
    have filled : (takeUnsigned (takeSign cs).2).1 ≠ [] := back ▸ some
    obtain ⟨joined, ends⟩ := Double.integerTaken filled (back ▸ digits)
    exact ⟨sign, ds, _, is, by rw [front, back, joined, parts.2], digits, long, ends⟩
  · rintro ⟨sign, ds, rest, is, rfl, digits, long, ends⟩
    have some : ds ≠ [] := by
      rintro rfl
      exact absurd long (by decide)
    rw [Double.takeSignDigits is some digits, Double.takeInteger some digits ends]
    exact ⟨sign, ds, is, rfl, digits, long⟩

/-- Where a long integer leads, there is a number and it is not infinite. -/
theorem longDigits (long : LongLeading cs) : "Infinity".toList.isPrefixOf (takeSign cs).2 = false ∧
    (takeUnsigned (takeSign cs).2).1 ≠ [] := by
  obtain ⟨sign, ds, rest, is, rfl, digits, many, ends⟩ := long
  cases ds with
  | nil => exact absurd many (by decide)
  | cons c ds =>
    have other : c ≠ 'I' := by
      rintro rfl
      exact absurd (List.all_eq_true.mp digits 'I' List.mem_cons_self) (by decide)
    rw [Double.takeSignDigits is (by simp) digits, Double.takeInteger (by simp) digits ends]
    exact ⟨by simp [List.isPrefixOf, other.symm], by simp⟩

/-- The number at the start of a text fails only if it is too long an integer. -/
theorem floatFails (nested : Nested s v) : (∃ f, parseFloat s v = .error f) ↔
    Oversized s v ∨ ∃ t, toText s v = .ok t ∧ LongLeading (Text.trimStart t.toList) := by
  cases found : toText s v with
  | error f => simp [parseFloat, found, ((textFails nested).mp found).2, bind, Except.bind]
  | ok t =>
    generalize start : Text.trimStart t.toList = cs
    have steps : parseFloat s v =
        if "Infinity".toList.isPrefixOf (takeSign cs).2 then .ok (Number.infinity ((takeSign cs).1 == ['-']))
        else if (takeUnsigned (takeSign cs).2).1.isEmpty then .ok Number.nan
        else numberOfText (String.ofList ((takeSign cs).1 ++ (takeUnsigned (takeSign cs).2).1)) := by
      rw [parseFloat, found, ← start]
      rfl
    have answer : (∃ u, (.ok t : Except Fault String) = .ok u ∧ LongLeading (Text.trimStart u.toList)) ↔ LongLeading cs := by
      simp [start]
    rw [steps, or_iff_right (textWhole nested found), answer]
    split
    case isTrue infinite =>
      refine ⟨nofun, fun long => ?_⟩
      rw [(longDigits long).1] at infinite
      cases infinite
    case isFalse =>
      split
      case isTrue none => exact ⟨nofun, fun long => absurd (List.isEmpty_iff.mp none) (longDigits long).2⟩
      case isFalse => exact leadingFails

end Leading

/-! Digits of a base -/

section Digits

variable {base n : Nat} {c : Char} {ds : List Char}

/-- The sign of the unit of temperature, whose small form is the letter `k`. -/
def kelvin : Char := Char.ofNat 0x212a

theorem caseRunsHold {holds : Text.CaseRun → Prop} {rows : Array (Nat × Nat × Nat × Int)}
    (all : ∀ row ∈ rows.toList, holds ⟨row.1, row.2.1, row.2.2.1, row.2.2.2⟩) : ∀ r ∈ Text.caseRuns rows, holds r := by
  intro r member
  obtain ⟨row, inside, rfl⟩ := Array.mem_map.mp member
  exact all row inside.val

set_option maxRecDepth 2048 in
theorem lowerCapitals : ∀ r ∈ Text.lowerRuns, 0x80 ≤ (r.first : Int) + r.shift ∨ r.first = 0x212a ∧ r.last = 0x212a :=
  caseRunsHold (by decide)

theorem asciiDigit : ∀ n < 0x80, baseDigit? (Char.ofNat n) = baseDigit? (Char.ofNat n).toLower := by decide

theorem highOther (high : 0x80 ≤ c.toNat ∨ c.toNat = 0) : (c.isDigit || (('a' ≤ c) && (c ≤ 'z'))) = false := by
  simp only [Char.isDigit, Char.le_def, UInt32.le_iff_toNat_le, ge_iff_le, Bool.or_eq_false_iff, Bool.and_eq_false_iff,
    decide_eq_false_iff_not, not_le]
  change (c.toNat < 48 ∨ 57 < c.toNat) ∧ (c.toNat < 97 ∨ 122 < c.toNat)
  omega

theorem ofNatHigh {n : Nat} (high : 0x80 ≤ n) : 0x80 ≤ (Char.ofNat n).toNat ∨ (Char.ofNat n).toNat = 0 := by
  unfold Char.ofNat
  split
  · exact .inl high
  · exact .inr rfl

theorem shiftedHigh (high : 0x80 ≤ c.toNat) (other : c ≠ kelvin) :
    0x80 ≤ (Text.shiftCase Text.lowerRuns c).toNat ∨ (Text.shiftCase Text.lowerRuns c).toNat = 0 := by
  unfold Text.shiftCase
  split
  case h_1 n found =>
    obtain ⟨r, member, mapped⟩ := Array.exists_of_findSome?_eq_some found
    unfold Text.CaseRun.map? at mapped
    split at mapped
    case isTrue inside =>
      obtain large | ⟨first, last⟩ := lowerCapitals r member
      · refine ofNatHigh ?_
        have := Option.some_inj.mp mapped
        omega
      · refine absurd ?_ other
        rw [← Char.ofNat_toNat c, kelvin, show c.toNat = 0x212a by omega]
    case isFalse => cases mapped
  case h_2 => exact .inl high

/-- A character that counts as a digit of a base is one, but for the one sign that has a digit for its small form. -/
theorem countedDigit (counted : isBaseDigit base c = true) : c = kelvin ∨ ∃ d < base, baseDigit? c = some d := by
  unfold isBaseDigit Text.lowerChar at counted
  split at counted
  case h_1 d small =>
    simp only [Bool.and_eq_true] at counted
    split at small
    case isTrue ascii =>
      cases small
      obtain ⟨d, value, inside⟩ := (Option.any_eq_true _ _).mp counted.2
      have plain := asciiDigit c.toNat ascii
      rw [Char.ofNat_toNat] at plain
      exact .inr ⟨d, of_decide_eq_true inside, plain ▸ value⟩
    case isFalse high =>
      split at small
      · cases small
      · cases small
        by_contra other
        rw [not_or] at other
        rw [highOther (shiftedHigh (by omega) other.1)] at counted
        exact absurd counted.1 (by decide)
  case h_2 => cases counted

theorem kelvinNone : baseDigit? kelvin = none := by decide

theorem readNone : ds.foldlM (readDigit base) n = none ↔ ¬ ∀ c ∈ ds, ∃ d < base, baseDigit? c = some d := by
  induction ds generalizing n with
  | nil => simp
  | cons c ds ih =>
    rw [List.foldlM_cons, List.forall_mem_cons]
    by_cases digit : ∃ d < base, baseDigit? c = some d
    · have step : ∃ m, readDigit base n c = some m := by
        obtain ⟨d, inside, value⟩ := digit
        exact ⟨n * base + d, by simp [readDigit, value, inside]⟩
      obtain ⟨m, step⟩ := step
      rw [step, iff_true_intro digit, true_and]
      exact ih
    · have step : readDigit base n c = none := by
        cases value : baseDigit? c with
        | none => simp [readDigit, value]
        | some d =>
          have outside : ¬ d < base := fun inside => digit ⟨d, inside, value⟩
          simp [readDigit, value, outside]
      simp [step, digit]

/-- Digits of a base that are not read as an integer. -/
def Refused (base : Nat) (ds : List Char) : Prop :=
  ds ≠ [] ∧ (kelvin ∈ ds ∨ integerDigitLimit < ds.length ∧ base ∉ [2, 4, 8, 16, 32])

theorem readRefused (counted : ds.all (isBaseDigit base) = true) (filled : ds ≠ []) :
    readInteger? base ds = none ↔ Refused base ds := by
  have digits : (∀ c ∈ ds, ∃ d < base, baseDigit? c = some d) ↔ kelvin ∉ ds := by
    constructor
    · intro all member
      obtain ⟨d, -, value⟩ := all kelvin member
      rw [kelvinNone] at value
      cases value
    · intro none c member
      exact (countedDigit (List.all_eq_true.mp counted c member)).resolve_left fun same => none (same ▸ member)
  have bases : (!([2, 4, 8, 16, 32].contains base)) = true ↔ base ∉ [2, 4, 8, 16, 32] := by simp
  unfold readInteger? Refused
  rw [if_neg (by simpa using filled)]
  split
  case isTrue limited =>
    rw [Bool.and_eq_true, decide_eq_true_eq, bases] at limited
    exact iff_of_true rfl ⟨filled, .inr limited⟩
  case isFalse within =>
    rw [Bool.and_eq_true, decide_eq_true_eq, bases] at within
    have read := @readNone base 0 ds
    rw [digits, not_not] at read
    exact read.trans ⟨fun member => ⟨filled, .inl member⟩, fun refused => refused.2.resolve_right within⟩

end Digits

/-! Integers at the start of texts -/

section Integers

variable {s : Store} {v radix : Value} {sign cs : List Char} {given : Whole}

/-- A base in which the digits at the start are not read as an integer. -/
def RefusedIn (base : Whole) (cs : List Char) : Prop :=
  ∃ b : Nat, base = .finite b ∧ 2 ≤ b ∧ b ≤ 36 ∧ Refused b (cs.takeWhile (isBaseDigit b))

theorem leadingRefused (base : Whole) : (∃ f, leadingInteger sign base cs = .error f) ↔ RefusedIn base cs := by
  unfold RefusedIn
  by_cases inside : ∃ b : Nat, base = .finite b ∧ 2 ≤ b ∧ b ≤ 36
  · obtain ⟨b, rfl, least, few⟩ := inside
    have only : (∃ c : Nat, Whole.finite b = .finite c ∧ 2 ≤ c ∧ c ≤ 36 ∧ Refused c (cs.takeWhile (isBaseDigit c))) ↔
        Refused b (cs.takeWhile (isBaseDigit b)) := by
      constructor
      · rintro ⟨c, same, -, -, refused⟩
        obtain rfl : b = c := by exact_mod_cast Whole.finite.inj same
        exact refused
      · exact fun refused => ⟨b, rfl, least, few, refused⟩
    rw [leadingAt sign least few, only]
    split
    case isTrue none =>
      refine ⟨nofun, fun refused => absurd (List.isEmpty_iff.mp none) refused.1⟩
    case isFalse filled =>
      have filled : cs.takeWhile (isBaseDigit b) ≠ [] := by simpa using filled
      rw [← readRefused List.all_takeWhile filled]
      split
      case h_1 read => simp [read]
      case h_2 read => simp [read]
  · have outside : (base.less 2 || base.greater 36) = true := by
      cases base with
      | infinite negative => cases negative <;> rfl
      | finite n =>
        simp only [Whole.less, Whole.greater, Bool.or_eq_true, decide_eq_true_eq]
        by_contra between
        exact inside ⟨n.toNat, congrArg Whole.finite (by omega), by omega, by omega⟩
    have ended : leadingInteger sign base cs = .ok Number.nan := by simp [leadingInteger, outside, pure, Except.pure]
    rw [ended]
    refine ⟨nofun, ?_⟩
    rintro ⟨b, same, least, few, -⟩
    exact absurd ⟨b, same, least, few⟩ inside

/-- The integer at the start of a text fails only if the base does, or if its digits are refused. -/
theorem integerLeadFails (first : Nested s v) (second : Nested s radix) : (∃ f, parseInt s v radix = .error f) ↔
    Oversized s v ∨ Uncounted s radix ∨ ∃ t given, toText s v = .ok t ∧ toInteger s radix 0 = .ok given ∧
      RefusedIn (chosenBase given (takeSign (Text.trim t.toList)).2).1 (chosenBase given (takeSign (Text.trim t.toList)).2).2 := by
  rw [parseIntSteps, ← integerFails second]
  cases text : toText s v with
  | error f => simp [((textFails first).mp text).2, bind, Except.bind]
  | ok t =>
    cases asked : toInteger s radix 0 with
    | error f => simp [bind, Except.bind]
    | ok given => simp [textWhole first text, leadingRefused, bind, Except.bind]

end Integers

/-- What conversions of values nested to a finite depth fail for. -/
structure ConversionFailures (s : Store) : Prop where
  text {v : Value} (nested : Nested s v) {f : Fault} : toText s v = .error f ↔ f = .overflow ∧ Oversized s v
  number {v : Value} (nested : Nested s v) : (∃ f, toNumber s v = .error f) ↔ Unnumbered s v
  integer {v : Value} (nested : Nested s v) {default : Int} : (∃ f, toInteger s v default = .error f) ↔ Uncounted s v
  truth {v : Value} {f : Fault} : truthy v = .error f ↔ f = .overflow ∧ ∃ k, v = .number k ∧ k.fits = false
  leading {v : Value} (nested : Nested s v) : (∃ f, parseFloat s v = .error f) ↔
    Oversized s v ∨ ∃ t, toText s v = .ok t ∧ LongLeading (Text.trimStart t.toList)
  integral {v radix : Value} (first : Nested s v) (second : Nested s radix) : (∃ f, parseInt s v radix = .error f) ↔
    Oversized s v ∨ Uncounted s radix ∨ ∃ t given, toText s v = .ok t ∧ toInteger s radix 0 = .ok given ∧
      RefusedIn (chosenBase given (takeSign (Text.trim t.toList)).2).1 (chosenBase given (takeSign (Text.trim t.toList)).2).2

/-- Conversions fail for integers without a nearest double and for integers that are too long to be read, and for
nothing else but one letter in a base that has it. -/
theorem conversionsFail (s : Store) : ConversionFailures s where
  text := textFails
  number := numberFails
  integer nested _ := integerFails nested
  truth := truthFails
  leading := floatFails
  integral := integerLeadFails

set_option maxRecDepth 2048 in
/-- An integer of 401 digits has neither a truth value nor a text. -/
theorem largeRefused : truthy (.int (10 ^ 400)) = .error .overflow ∧ toText {} (.int (10 ^ 400)) = .error .overflow := by
  have beyond : (Number.int (10 ^ 400)).fits = false := Number.largeBeyond (by decide)
  have single : Nested {} (.int (10 ^ 400)) := .single fun _ same => by cases same
  exact ⟨truthFails.mpr ⟨rfl, _, rfl, beyond⟩, (textFails single).mpr ⟨rfl, _, .self _, beyond⟩⟩

end Fragment.Value
