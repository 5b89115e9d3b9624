import Fragment.Parameter
import Fragment.Proofs.DoubleRange
import Fragment.Proofs.FoldedNumbers

/-! Parameter values on the wire.
A list is read exactly if a valid value is written as it and has no bound that is NaN or an integer without a nearest
double. All other data is refused with a reason, apart from ranges with such an integer: the question whether it is NaN
goes through the doubles and overflows. -/
namespace Fragment.ParameterValue

/-- The bounds of a range; a single value has none. -/
def bounds : ParameterValue → List Data
  | .literal _ => []
  | .range low high => [low, high]

/-- Some parameter can take the value. -/
def Accepted (v : ParameterValue) : Prop := ∃ p : Parameter, v.isValid p = true

/-- All bounds are numbers that can be asked whether they are NaN, and none is. -/
def Readable (v : ParameterValue) : Prop := ∀ k, .number k ∈ v.bounds → k.hasValue = true ∧ k.fits = true

section Reading

variable {d value low high : Data} {v : ParameterValue} {k a b : Number} {f : Fault}

theorem nanAsked : k.isNaN = if k.fits then .ok !k.hasValue else .error .overflow := by
  cases k with
  | float x => simp [Number.isNaN, Number.fits, Number.hasValue]
  | int n =>
    cases fits : (Number.int n).fits with
    | true =>
      obtain ⟨x, found⟩ := Number.toFloatFits fits
      simp [Number.isNaN, found, Number.hasValue, bind, Except.bind, pure, Except.pure]
    | false => simp [Number.isNaN, Number.toFloatBeyond fits, bind, Except.bind]

theorem acceptedLiteral : Accepted (.literal value) ↔ (isNumeric value || isText value) = true := by
  rw [Bool.or_eq_true]
  constructor
  · rintro ⟨⟨name, kind⟩, valid⟩
    cases kind with
    | numeric => exact .inl valid
    | textual => exact .inr valid
  · rintro (number | text)
    · exact ⟨⟨"", .numeric⟩, number⟩
    · exact ⟨⟨"", .textual⟩, text⟩

theorem acceptedRange : Accepted (.range low high) ↔ ∃ a b, low = .number a ∧ high = .number b := by
  have numeric (d : Data) : isNumeric d = true ↔ ∃ k, d = .number k := by cases d <;> simp [isNumeric]
  constructor
  · rintro ⟨⟨name, kind⟩, valid⟩
    cases kind with
    | numeric =>
      obtain ⟨least, most⟩ := Bool.and_eq_true_iff.mp valid
      obtain ⟨a, rfl⟩ := (numeric low).mp least
      obtain ⟨b, rfl⟩ := (numeric high).mp most
      exact ⟨a, b, rfl, rfl⟩
    | textual => cases valid
  · rintro ⟨a, b, rfl, rfl⟩
    exact ⟨⟨"", .numeric⟩, rfl⟩

theorem readableRange : Readable (.range (.number a) (.number b)) ↔
    (a.hasValue = true ∧ a.fits = true) ∧ b.hasValue = true ∧ b.fits = true := by
  simp [Readable, bounds]

theorem literalRead (value : Data) : ofWire (.list [.text "literal", value]) =
    if isNumeric value || isText value then .ok (.literal value)
    else .error (.argument ("literal value must be a number or a string, got " ++ value.shown)) := by
  unfold ofWire
  simp only [throw, throwThe, MonadExceptOf.throw, pure, Except.pure]

/-- The low bound is asked first, and the high one only if that is not NaN. -/
theorem rangeRead (a b : Number) : ofWire (.list [.text "number-range", .number a, .number b]) =
    if a.fits = false ∨ a.hasValue = true ∧ b.fits = false then .error .overflow
    else if a.hasValue && b.hasValue then .ok (.range (.number a) (.number b))
    else .error (.argument "range bounds must not be NaN") := by
  unfold ofWire
  simp only [nanAsked, throw, throwThe, MonadExceptOf.throw, bind, Except.bind, pure, Except.pure]
  cases a.fits <;> cases a.hasValue <;> cases b.fits <;> cases b.hasValue <;> rfl

/-- What reading comes to: one value, one pair of numbers, or a reason. -/
theorem readCases (d : Data) : (∃ value, d = .list [.text "literal", value]) ∨
    (∃ a b, d = .list [.text "number-range", .number a, .number b]) ∨ ∃ message, ofWire d = .error (.argument message) := by
  unfold ofWire
  split
  case h_1 tag args =>
    split
    · split
      · exact .inl ⟨_, rfl⟩
      · exact .inr (.inr ⟨_, rfl⟩)
    · split
      · split
        · exact .inr (.inl ⟨_, _, rfl⟩)
        · exact .inr (.inr ⟨_, rfl⟩)
      · exact .inr (.inr ⟨_, rfl⟩)
    · exact .inr (.inr ⟨_, rfl⟩)
  case h_2 => exact .inr (.inr ⟨_, rfl⟩)

theorem readBack (accepted : v.Accepted) (readable : v.Readable) : ofWire (.list v.toWire) = .ok v := by
  cases v with
  | literal value => rw [toWire, literalRead, if_pos (acceptedLiteral.mp accepted)]
  | range low high =>
    obtain ⟨a, b, rfl, rfl⟩ := acceptedRange.mp accepted
    obtain ⟨least, most⟩ := readableRange.mp readable
    rw [toWire, rangeRead]
    simp [least, most]

theorem readWritten (read : ofWire d = .ok v) : d = .list v.toWire ∧ v.Accepted ∧ v.Readable := by
  obtain ⟨value, rfl⟩ | ⟨a, b, rfl⟩ | ⟨message, refused⟩ := readCases d
  · rw [literalRead] at read
    split at read
    case isTrue accepted =>
      cases read
      exact ⟨rfl, acceptedLiteral.mpr accepted, by simp [Readable, bounds]⟩
    case isFalse => cases read
  · rw [rangeRead] at read
    split at read
    case isTrue => cases read
    case isFalse inside =>
      split at read
      case isTrue values =>
        cases read
        rw [Bool.and_eq_true] at values
        simp only [values.1, true_and, not_or, Bool.not_eq_false] at inside
        exact ⟨rfl, acceptedRange.mpr ⟨a, b, rfl, rfl⟩, readableRange.mpr ⟨⟨values.1, inside.1⟩, values.2, inside.2⟩⟩
      case isFalse => cases read
  · rw [refused] at read
    cases read

theorem refusedReason (failed : ofWire d = .error f) : f = .overflow ∨ ∃ message, f = .argument message := by
  obtain ⟨value, rfl⟩ | ⟨a, b, rfl⟩ | ⟨message, refused⟩ := readCases d
  · rw [literalRead] at failed
    split at failed
    · cases failed
    · cases failed
      exact .inr ⟨_, rfl⟩
  · rw [rangeRead] at failed
    split at failed
    · cases failed
      exact .inl rfl
    · split at failed
      · cases failed
      · cases failed
        exact .inr ⟨_, rfl⟩
  · rw [refused] at failed
    cases failed
    exact .inr ⟨message, rfl⟩

theorem overflowRange : ofWire d = .error .overflow ↔ ∃ a b, d = .list [.text "number-range", .number a, .number b] ∧
    (a.fits = false ∨ a.hasValue = true ∧ b.fits = false) := by
  constructor
  · intro failed
    obtain ⟨value, rfl⟩ | ⟨a, b, rfl⟩ | ⟨message, refused⟩ := readCases d
    · rw [literalRead] at failed
      split at failed <;> cases failed
    · rw [rangeRead] at failed
      split at failed
      case isTrue large => exact ⟨a, b, rfl, large⟩
      case isFalse => split at failed <;> cases failed
    · rw [refused] at failed
      cases failed
  · rintro ⟨a, b, rfl, large⟩
    rw [rangeRead, if_pos large]

end Reading

/-- What reading a list or other data gives. -/
structure WireLaws (d : Data) : Prop where
  reads {v : ParameterValue} : ofWire d = .ok v ↔ d = .list v.toWire ∧ v.Accepted ∧ v.Readable
  refuses {f : Fault} (failed : ofWire d = .error f) : f = .overflow ∨ ∃ message, f = .argument message
  overflows : ofWire d = .error .overflow ↔ ∃ a b, d = .list [.text "number-range", .number a, .number b] ∧
    (a.fits = false ∨ a.hasValue = true ∧ b.fits = false)

theorem wireValuesRead (d : Data) : WireLaws d where
  reads := ⟨readWritten, fun ⟨same, accepted, readable⟩ => same ▸ readBack accepted readable⟩
  refuses := refusedReason
  overflows := overflowRange

/-- A range up to an integer of 401 digits. -/
def farRange : ParameterValue := .range (.number (.int 0)) (.number (.int (10 ^ 400)))

set_option maxRecDepth 2048 in
/-- It is valid and has no NaN, and what is written for it is not read. -/
theorem farRangeRefused : farRange.isValid ⟨"x", .numeric⟩ = true ∧ (∀ k, .number k ∈ farRange.bounds → k.hasValue = true) ∧
    ofWire (.list farRange.toWire) = .error .overflow := by
  have beyond : (Number.int (10 ^ 400)).fits = false := Number.largeBeyond (by decide)
  refine ⟨rfl, fun k bound => ?_, overflowRange.mpr ⟨_, _, rfl, .inr ⟨rfl, beyond⟩⟩⟩
  obtain same | same := List.mem_pair.mp bound
  · cases same
    rfl
  · cases same
    rfl

end Fragment.ParameterValue
