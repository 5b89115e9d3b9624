import Fragment.Proofs.FractionText
import Fragment.Proofs.StoreLaws

/-! Reads of rows.
Arrays and texts are rows of elements, read by numbers or by texts. A number that is a place gives the element there, and
a number with a fraction nothing; but a negative place is counted from the end, one before the start is refused, and so
is an integer that has no nearest double. A text is refused if it consists of digits that no integer is read from. -/
namespace Fragment.Value

open Double (floatKind digitsValue integerDigitLimit isMark)
open Text (isDecimalDigit isDigitSign)

/-- The characters of a text, as texts. -/
def characters (t : String) : Array Value := t.toList.toArray.map fun c => .text (String.singleton c)

/-- An array or a text, and what it consists of. -/
inductive Row (s : Store) : Value → Array Value → Prop
  | array (ref : Nat) : Row s (.array ref) (s.array ref)
  | text (t : String) : Row s (.text t) (characters t)

/-- A text of digits that no integer is read from: some have no place value, or there are too many. -/
def Unreadable (key : String) : Prop :=
  key.toList ≠ [] ∧ key.toList.all isDigitSign = true ∧
    ¬ (key.toList.all isDecimalDigit = true ∧ key.toList.length ≤ integerDigitLimit)

section Elements

variable {items : Array Value} {n : Nat}

theorem charElement (t : String) (pos : Int) : charAt t pos = elementAt (characters t) pos := by
  unfold charAt elementAt itemAt characters
  simp only [Array.size_map, Array.getElem?_map]
  split
  · simp only [bind, Except.bind, pure, Except.pure]
    cases t.toList.toArray[pos.toNat]? <;> rfl
  · split
    · simp only [bind, Except.bind, pure, Except.pure]
      cases t.toList.toArray[(pos + t.toList.toArray.size).toNat]? <;> rfl
    · rfl

theorem elementWhole (items : Array Value) (n : Nat) : elementAt items n = .ok (readAt items n) := by
  simp [elementAt, itemAt, readAt, bind, Except.bind, pure, Except.pure]

/-- A negative position counts from the end. -/
theorem elementBack (some : 0 < n) (few : n ≤ items.size) :
    elementAt items (-n) = .ok (readAt items (items.size - n)) := by
  have place : (-(n : Int) + items.size).toNat = items.size - n := by omega
  rw [elementAt, itemAt, if_neg (by omega), if_pos (by omega), place]
  rfl

theorem elementBefore (many : items.size < n) : elementAt items (-n) = .error .index := by
  rw [elementAt, itemAt, if_neg (by omega), if_neg (by omega)]
  rfl

end Elements

/-! Positions -/

section Positions

variable {k : Number} {key : String}

/-- An integral double equals the integer that it is cut off to. -/
theorem truncateEquals {b : Double.Binary} (integer : b.isInteger = true) : b.compareInt b.truncate = .eq := by
  simp only [Double.Binary.isInteger, decide_eq_true_eq] at integer
  have whole := Nat.div_mul_cancel (Nat.dvd_of_mod_eq_zero integer)
  simp only [Double.Binary.compareInt, Double.Binary.truncate, compare_eq_iff_eq]
  rw [← Int.natCast_mul, ← whole, Int.natCast_mul]
  split <;> simp

theorem wholePosition {n : Int} (same : k.equals (.int n) = true) (fits : k.fits = true) :
    position? (.number k) = .ok (some n) := by
  cases k with
  | int m =>
    obtain ⟨x, found⟩ := Number.toFloatFits fits
    obtain rfl : m = n := by simpa [Number.equals, Number.compare?] using same
    unfold position?
    simp [found, bind, Except.bind, pure, Except.pure]
  | float x =>
    obtain ⟨b, finite, integer, whole⟩ := equalsWhole same
    unfold position?
    simp [Double.isIntegral, Double.truncate?, finite, integer, whole]

theorem beyondPosition (beyond : k.fits = false) : position? (.number k) = .error .overflow := by
  cases k with
  | int m =>
    unfold position?
    simp [Number.toFloatBeyond beyond, bind, Except.bind]
  | float x => cases beyond

theorem smallDigit {c : Char} {d : Nat} (digit : Double.baseDigit? c = some d) (small : d < 10) : isDecimalDigit c = true := by
  have letter (a b : Char) (shift : Nat) (high : shift + 10 ≤ a.toNat) (inside : (decide (a ≤ c) && decide (c ≤ b)) = true)
      (value : c.toNat - shift = d) : False := by
    simp only [Bool.and_eq_true, decide_eq_true_eq, Char.le_def, UInt32.le_iff_toNat_le] at inside
    have : a.toNat ≤ c.toNat := inside.1
    omega
  unfold Double.baseDigit? at digit
  split at digit
  case isTrue inside => exact (letter 'a' 'z' 87 (by decide) inside (Option.some_inj.mp digit)).elim
  case isFalse =>
    split at digit
    case isTrue inside => exact (letter 'A' 'Z' 55 (by decide) inside (Option.some_inj.mp digit)).elim
    case isFalse => exact Option.isSome_of_eq_some digit

theorem readDigits {ds : List Char} {n : Nat} (read : Double.readInteger? 10 ds = some n) : ds.all isDecimalDigit = true := by
  have folded {m : Nat} (run : ds.foldlM (fun n c => do
      let d ← Double.baseDigit? c
      if d < 10 then some (n * 10 + d) else none) m = some n) : ds.all isDecimalDigit = true := by
    clear read
    induction ds generalizing m with
    | nil => rfl
    | cons c ds ih =>
      rw [List.foldlM_cons] at run
      obtain ⟨next, first, rest⟩ := Option.bind_eq_some_iff.mp run
      obtain ⟨d, digit, last⟩ := Option.bind_eq_some_iff.mp first
      split at last
      case isTrue small => rw [List.all_cons, smallDigit digit small, ih rest, Bool.and_self]
      case isFalse => cases last
  unfold Double.readInteger? at read
  split at read
  · cases read
  · split at read
    · cases read
    · exact folded read

theorem positionFails (key : String) : (∃ f, positionOfText key = .error f) ↔ Unreadable key := by
  unfold positionOfText Unreadable
  dsimp only
  split
  case isTrue other =>
    simp only [Bool.or_eq_true, List.isEmpty_iff, Bool.not_eq_true'] at other
    constructor
    · rintro ⟨f, failed⟩
      cases failed
    · rintro ⟨some, signs, -⟩
      rw [signs] at other
      exact absurd (other.resolve_right (by decide)) some
  case isFalse signs =>
    simp only [Bool.or_eq_true, List.isEmpty_iff, Bool.not_eq_true', not_or, Bool.not_eq_false] at signs
    refine ⟨fun ⟨f, failed⟩ => ⟨signs.1, signs.2, fun ⟨digits, short⟩ => ?_⟩, fun ⟨_, _, long⟩ => ?_⟩
    · rw [Double.readDecimal signs.1 digits, if_neg (not_lt.mpr short)] at failed
      cases failed
    · cases read : Double.readInteger? 10 key.toList with
      | none => exact ⟨_, rfl⟩
      | some n =>
        have digits := readDigits read
        rw [Double.readDecimal signs.1 digits] at read
        split at read
        · cases read
        case isFalse short => exact absurd ⟨digits, not_lt.mp short⟩ long

theorem spelledRead (some : key.toList ≠ []) (digits : key.toList.all isDecimalDigit = true)
    (short : key.toList.length ≤ integerDigitLimit) : positionOfText key = .ok (.some (digitsValue key.toList : Int)) := by
  have signs : key.toList.all isDigitSign = true := by
    refine List.all_eq_true.mpr fun c member => ?_
    rw [isDigitSign, List.all_eq_true.mp digits c member, Bool.true_or]
  have filled : key.toList.isEmpty = false := by simpa using some
  simp only [positionOfText, signs, filled, Double.readDecimal some digits, if_neg (not_lt.mpr short)]
  rfl

/-- The names of members are no positions. -/
theorem namePosition {m : Member} (named : Member.ofText? key = some m) :
    positionOfText key = .ok none ∧ key.toList.all (!isMark ·) = true := by
  unfold Member.ofText? at named
  split at named <;> first
    | exact ⟨rfl, by decide⟩
    | cases named

theorem lengthPosition : positionOfText "length" = .ok none ∧ "length".toList.all (!isMark ·) = true := ⟨rfl, by decide⟩

theorem placedPlain (placed : positionOfText key ≠ .ok none) : key ≠ "length" ∧ Member.ofText? key = none := by
  refine ⟨fun same => placed (same ▸ lengthPosition.1), ?_⟩
  cases named : Member.ofText? key with
  | none => rfl
  | some m => exact absurd (namePosition named).1 placed

theorem positionNatural {pos : Int} (found : positionOfText key = .ok (some pos)) : ∃ n : Nat, pos = n := by
  unfold positionOfText at found
  dsimp only at found
  split at found
  · cases found
  · split at found
    · cases found
      exact ⟨_, rfl⟩
    · cases found

theorem markSign {c : Char} (mark : isMark c = true) : isDigitSign c = false := by
  simp only [isMark, Bool.or_eq_true, decide_eq_true_eq] at mark
  rcases mark with (rfl | rfl) | rfl <;> decide

end Positions

section Reads

variable {s : Store} {row : Value} {items : Array Value} {k : Number} {key : String}

theorem indexNumber (is : Row s row items) {pos : Int} (found : position? (.number k) = .ok (some pos)) :
    index s row (.number k) = do return .value (← elementAt items pos) := by
  cases is with
  | array ref =>
    unfold index
    simp [found, bind, Except.bind, pure, Except.pure]
  | text t =>
    unfold index
    simp [found, charElement, bind, Except.bind, pure, Except.pure]

/-- What is at a position, if there is one. -/
def readPosition (items : Array Value) : Option Int → Except Fault Found
  | some pos => return .value (← elementAt items pos)
  | none => return .value .undefined

/-- A key that is no name is a position or nothing. -/
theorem memberPosition (is : Row s row items) (plain : key ≠ "length") (unnamed : Member.ofText? key = none) :
    getMember s row key = (do readPosition items (← positionOfText key)) := by
  cases is with
  | array ref =>
    unfold getMember
    simp only [plain, if_false]
    rfl
  | text t =>
    unfold getMember
    simp only [plain, unnamed, if_false, charElement]
    rfl

/-- A text is the same key to both kinds of reads. -/
theorem indexText (is : Row s row items) (key : String) : index s row (.text key) = getMember s row key := by
  by_cases position : positionOfText key = .ok none
  · cases is <;> simp [index, position?, position, propertyKey, toText, textWithin, bind, Except.bind, pure, Except.pure]
  · obtain ⟨plain, unnamed⟩ := placedPlain position
    rw [memberPosition is plain unnamed]
    cases found : positionOfText key with
    | error f =>
      unfold index position?
      cases is <;> simp [found, bind, Except.bind]
    | ok place =>
      cases place with
      | none => exact absurd found position
      | some pos =>
        unfold readPosition
        unfold index position?
        cases is <;> simp [found, charElement, bind, Except.bind, pure, Except.pure]

theorem memberMissing (is : Row s row items) (plain : key ≠ "length") (unnamed : Member.ofText? key = none)
    (unplaced : positionOfText key = .ok none) : getMember s row key = .ok (.value .undefined) := by
  rw [memberPosition is plain unnamed, unplaced]
  rfl

/-- A text with a mark neither names anything nor is a position. -/
theorem memberMarked (is : Row s row items) {c : Char} (member : c ∈ key.toList) (mark : isMark c = true) :
    getMember s row key = .ok (.value .undefined) := by
  have other {name : String} (letters : name.toList.all (!isMark ·) = true) : key ≠ name := by
    rintro rfl
    simpa [mark] using List.all_eq_true.mp letters c member
  have unnamed : Member.ofText? key = none := by
    cases named : Member.ofText? key with
    | none => rfl
    | some m => exact absurd rfl (other (namePosition named).2)
  have signs : key.toList.all isDigitSign = false := by
    rw [List.all_eq_false]
    exact ⟨c, member, by simp [markSign mark]⟩
  exact memberMissing is (other lengthPosition.2) unnamed (by simp [positionOfText, signs])

theorem indexUnplaced (is : Row s row items) {k : Value} {name : String} (unplaced : position? k = .ok none)
    (spelled : toText s k = .ok name) : index s row k = getMember s row name := by
  unfold index
  cases is <;> simp [unplaced, propertyKey, spelled, bind, Except.bind, pure, Except.pure]

/-- A number that is no integer reads nothing. -/
theorem indexOther (is : Row s row items) (other : ∀ n : Int, k.equals (.int n) = false) :
    index s row (.number k) = .ok (.value .undefined) := by
  cases k with
  | int n => simpa [Number.equals, Number.compare?] using other n
  | float x =>
    have spelled : toText s (.number (.float x)) = .ok (Double.sourceText x) := rfl
    cases kind : floatKind x with
    | nan =>
      have name : Double.sourceText x = "NaN" := by rw [Double.sourceText, kind]
      rw [indexUnplaced is (by simp [position?, Double.isIntegral, kind]) spelled, name]
      exact memberMissing is (by decide) rfl rfl
    | infinite negative =>
      rw [indexUnplaced is (by simp [position?, Double.isIntegral, kind]) spelled, Double.sourceText, kind]
      cases negative <;> exact memberMissing is (by decide) rfl rfl
    | finite b =>
      have fraction : b.isInteger = false := by
        cases integer : b.isInteger with
        | false => rfl
        | true => simpa [Number.equals, Number.compare?, kind, truncateEquals integer] using other b.truncate
      obtain ⟨c, member, mark⟩ := Double.fractionMark kind fraction
      rw [indexUnplaced is (by simp [position?, Double.isIntegral, kind, fraction]) spelled]
      exact memberMarked is member mark

theorem memberNamed (is : Row s row items) (unplaced : positionOfText key = .ok none) : ∃ found, getMember s row key = .ok found := by
  by_cases length : key = "length"
  · subst length
    cases is <;> exact ⟨_, rfl⟩
  · cases is with
    | array ref =>
      unfold getMember
      exact ⟨_, by simp [length, unplaced, bind, Except.bind, pure, Except.pure]; rfl⟩
    | text t =>
      cases named : Member.ofText? key with
      | some m =>
        unfold getMember
        exact ⟨.member m, by simp [length, named, pure, Except.pure]⟩
      | none => exact ⟨_, memberMissing (.text t) length named unplaced⟩

/-- A text is refused exactly if no position is read from its digits. -/
theorem memberFails (is : Row s row items) (key : String) : (∃ f, getMember s row key = .error f) ↔ Unreadable key := by
  rw [← positionFails]
  by_cases unplaced : positionOfText key = .ok none
  · obtain ⟨found, member⟩ := memberNamed is unplaced
    simp [unplaced, member]
  · obtain ⟨plain, unnamed⟩ := placedPlain unplaced
    rw [memberPosition is plain unnamed]
    cases placed : positionOfText key with
    | error f => simp [bind, Except.bind]
    | ok place =>
      cases place with
      | none => exact absurd placed unplaced
      | some pos =>
        obtain ⟨n, rfl⟩ := positionNatural placed
        unfold readPosition
        simp [elementWhole, bind, Except.bind, pure, Except.pure]

/-- Digits read the element at the place that they spell. -/
theorem memberSpelled (is : Row s row items) (some : key.toList ≠ []) (digits : key.toList.all isDecimalDigit = true)
    (short : key.toList.length ≤ integerDigitLimit) :
    getMember s row key = .ok (.value (readAt items (digitsValue key.toList))) := by
  have placed := spelledRead some digits short
  obtain ⟨plain, unnamed⟩ := placedPlain (by rw [placed]; nofun)
  rw [memberPosition is plain unnamed, placed]
  unfold readPosition
  simp [elementWhole, bind, Except.bind, pure, Except.pure]

end Reads

/-- What the keys of a row read. -/
structure RowReads (s : Store) (row : Value) (items : Array Value) : Prop where
  whole {k : Number} {n : Nat} (same : k.equals (.int n) = true) (fits : k.fits = true) :
    index s row (.number k) = .ok (.value (readAt items n))
  back {k : Number} {n : Nat} (same : k.equals (.int (-n)) = true) (some : 0 < n) (few : n ≤ items.size) (fits : k.fits = true) :
    index s row (.number k) = .ok (.value (readAt items (items.size - n)))
  before {k : Number} {n : Nat} (same : k.equals (.int (-n)) = true) (many : items.size < n) (fits : k.fits = true) :
    index s row (.number k) = .error .index
  beyond {k : Number} (beyond : k.fits = false) : index s row (.number k) = .error .overflow
  other {k : Number} (other : ∀ n : Int, k.equals (.int n) = false) : index s row (.number k) = .ok (.value .undefined)
  text (key : String) : index s row (.text key) = getMember s row key
  spelled {key : String} (some : key.toList ≠ []) (digits : key.toList.all isDecimalDigit = true)
    (short : key.toList.length ≤ integerDigitLimit) :
    getMember s row key = .ok (.value (readAt items (digitsValue key.toList)))
  refused (key : String) : (∃ f, getMember s row key = .error f) ↔ Unreadable key

theorem rowReads {s : Store} {row : Value} {items : Array Value} (is : Row s row items) : RowReads s row items where
  whole same fits := by
    rw [indexNumber is (wholePosition same fits), elementWhole]
    rfl
  back same some few fits := by
    rw [indexNumber is (wholePosition same fits), elementBack some few]
    rfl
  before same many fits := by
    rw [indexNumber is (wholePosition same fits), elementBefore many]
    rfl
  beyond beyond := by
    unfold index
    cases is <;> simp [beyondPosition beyond, bind, Except.bind]
  other := indexOther is
  text := indexText is
  spelled := memberSpelled is
  refused := memberFails is

/-- What numbers and texts read of an array or a text. -/
theorem rowsRead (s : Store) : (∀ ref, RowReads s (.array ref) (s.array ref)) ∧ ∀ t, RowReads s (.text t) (characters t) :=
  ⟨fun ref => rowReads (.array ref), fun t => rowReads (.text t)⟩

/-- The number before the first place reads the last element, and one further down is refused. -/
theorem negativePlaces : index ⟨#[#[.int 1, .int 2]], #[]⟩ (.array 0) (.int (-1)) = .ok (.value (.int 2)) ∧
    index ⟨#[#[.int 1, .int 2]], #[]⟩ (.array 0) (.int (-3)) = .error .index := by
  have position (n : Nat) (small : (-n : Int).natAbs.log2 < 1023) : position? (.number (.int (-n))) = .ok (some (-n)) :=
    wholePosition (by simp [Number.equals, Number.compare?]) (Number.smallFits small)
  exact ⟨indexNumber (.array 0) (position 1 (by decide)), indexNumber (.array 0) (position 3 (by decide))⟩

end Fragment.Value
