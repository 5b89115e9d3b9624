import Fragment.Proofs.WholeDoubles
import Fragment.Typing.Constant
import Fragment.Value.Arith

/-! Doubles that differ at most in the sign of a zero.
Operations cannot tell such doubles apart, but for a divisor. -/
namespace Fragment.Double

open Float.Model (UnpackedFloat)
open Float.Model.UnpackedFloat (Sign)

/-- The same double, or two zeros. -/
def Close (x y : Float) : Prop := x = y ∨ IsWhole x 0 ∧ IsWhole y 0

/-- The same parts, or two zeros. -/
def Near (u v : UnpackedFloat) : Prop := u = v ∨ (∃ s, u = .zero s) ∧ ∃ s, v = .zero s

theorem addNear {u u' v v' : UnpackedFloat} (left : Near u u') (right : Near v v') :
    Near (UnpackedFloat.add .binary64 u v) (UnpackedFloat.add .binary64 u' v') := by
  obtain rfl | ⟨⟨s, rfl⟩, t, rfl⟩ := left
  · obtain rfl | ⟨⟨s, rfl⟩, t, rfl⟩ := right
    · exact .inl rfl
    · cases u with
      | zero r => exact .inr ⟨addZeros r s, addZeros r t⟩
      | _ => exact .inl rfl
  · obtain rfl | ⟨⟨p, rfl⟩, q, rfl⟩ := right
    · cases v with
      | zero r => exact .inr ⟨addZeros s r, addZeros t r⟩
      | _ => exact .inl rfl
    · exact .inr ⟨addZeros s p, addZeros t q⟩

theorem mulNear {u u' v v' : UnpackedFloat} (left : Near u u') (right : Near v v') :
    Near (UnpackedFloat.mul .binary64 u v) (UnpackedFloat.mul .binary64 u' v') := by
  obtain rfl | ⟨⟨s, rfl⟩, t, rfl⟩ := left
  · obtain rfl | ⟨⟨s, rfl⟩, t, rfl⟩ := right
    · exact .inl rfl
    · cases u with
      | zero | finite => exact .inr ⟨⟨_, rfl⟩, _, rfl⟩
      | _ => exact .inl rfl
  · obtain rfl | ⟨⟨p, rfl⟩, q, rfl⟩ := right
    · cases v with
      | zero | finite => exact .inr ⟨⟨_, rfl⟩, _, rfl⟩
      | _ => exact .inl rfl
    · exact .inr ⟨⟨_, rfl⟩, _, rfl⟩

theorem divNear {u u' : UnpackedFloat} (left : Near u u') (v : UnpackedFloat) :
    Near (UnpackedFloat.div .binary64 u v) (UnpackedFloat.div .binary64 u' v) := by
  obtain rfl | ⟨⟨s, rfl⟩, t, rfl⟩ := left
  · exact .inl rfl
  · cases v with
    | infinity | finite => exact .inr ⟨⟨_, rfl⟩, _, rfl⟩
    | _ => exact .inl rfl

section Close

variable {x x' y y' : Float}

theorem closeOf {u v : UnpackedFloat} (near : Near u v) :
    Close (Float.ofModel (Float.Model.pack u)) (Float.ofModel (Float.Model.pack v)) := by
  obtain rfl | ⟨⟨s, first⟩, t, second⟩ := near
  · exact .inl rfl
  · exact .inr ⟨zeroOf rfl first, zeroOf rfl second⟩

theorem nearParts (close : Close x y) : Near (parts x) (parts y) := by
  obtain rfl | ⟨first, second⟩ := close
  · exact .inl rfl
  · exact .inr ⟨zeroParts first, zeroParts second⟩

theorem addClose (left : Close x x') (right : Close y y') : Close (x + y) (x' + y') :=
  closeOf (addNear (nearParts left) (nearParts right))

theorem negClose (close : Close x y) : Close (-x) (-y) := by
  obtain rfl | ⟨first, second⟩ := close
  · exact .inl rfl
  · exact .inr ⟨negWhole rfl first, negWhole rfl second⟩

theorem subClose (left : Close x x') (right : Close y y') : Close (x - y) (x' - y') := by
  rw [subNeg, subNeg]
  exact addClose left (negClose right)

theorem mulClose (left : Close x x') (right : Close y y') : Close (x * y) (x' * y') :=
  closeOf (mulNear (nearParts left) (nearParts right))

theorem divClose (left : Close x x') (y : Float) : Close (x / y) (x' / y) :=
  closeOf (divNear (nearParts left) (parts y))

theorem remClose (left : Close x x') (y : Float) : Close (floatRemainder x y) (floatRemainder x' y) := by
  obtain rfl | ⟨first, second⟩ := left
  · exact .inl rfl
  · obtain ⟨s, zero⟩ := zeroParts first
    obtain ⟨t, other⟩ := zeroParts second
    unfold floatRemainder
    rw [kindZero zero, kindZero other]
    cases floatKind y with
    | nan => exact .inl rfl
    | infinite => exact .inr ⟨first, second⟩
    | finite b =>
      simp only [Nat.zero_mul, Nat.zero_mod, ratioZero]
      split
      · exact .inl rfl
      · exact .inr ⟨zeroWhole (partsZero _), zeroWhole (partsZero _)⟩

end Close

end Fragment.Double

/-! Numbers that are folded and numbers that are computed.
The checker folds a literal as it is read, while code spells doubles that are integers as such. So the same expression
has a double on one side and an integer on the other, and the operators are different functions on the two sides. -/
namespace Fragment.Number

open Double (IsWhole Close isSafe floatKind parts)
open Float.Model (UnpackedFloat)
open Typing (constantBinary)

/-- A folded number beside the one that is computed. -/
inductive Agree : Number → Number → Prop
  | int (n : Int) : Agree (.int n) (.int n)
  | float {x y : Float} (close : Close x y) : Agree (.float x) (.float y)
  | whole {x : Float} {n : Int} (safe : isSafe n = true) (same : IsWhole x n) : Agree (.float x) (.int n)

/-- The same number, or not a number both. -/
def Same (a b : Number) : Prop := a.equals b = true ∨ a.isNaN = .ok true ∧ b.isNaN = .ok true

/-! Comparison -/

theorem compareSelf {u : UnpackedFloat} (number : u ≠ .notANumber) : u.compare u = some .eq := by
  have signs (s : UnpackedFloat.Sign) : compare s s = .eq := by cases s <;> rfl
  cases u with
  | notANumber => exact absurd rfl number
  | infinity s => exact congrArg some (signs s)
  | zero => rfl
  | finite s m e _ =>
    unfold UnpackedFloat.compare
    cases s <;> simp

theorem lessParts {x y : Float} (less : x < y) : (parts x).compare (parts y) = some .lt := by
  have below : decide (x.toModel < y.toModel) = true := less
  exact eq_of_beq (of_decide_eq_true below)

theorem floatsEqual {x y : Float} (there : (parts x).compare (parts y) = some .eq)
    (back : (parts y).compare (parts x) = some .eq) : (Number.float x).equals (.float y) = true := by
  have less : ¬ x < y := fun below => by simp [lessParts below] at there
  have greater : ¬ y < x := fun below => by simp [lessParts below] at back
  have equal : (x == y) = true := by
    change ((parts x).compare (parts y) == some .eq) = true
    rw [there]
    rfl
  simp only [equals, compare?, less, greater, equal, if_true, if_false]
  rfl

theorem floatNaN {x : Float} (none : parts x = .notANumber) : (Number.float x).isNaN = .ok true := by
  simp only [isNaN, Double.isNaN, Double.kindParts, none, Double.kind]

theorem floatSame {x y : Float} (close : Close x y) : Same (.float x) (.float y) := by
  obtain rfl | ⟨first, second⟩ := close
  · by_cases none : parts x = .notANumber
    · exact .inr ⟨floatNaN none, floatNaN none⟩
    · exact .inl (floatsEqual (compareSelf none) (compareSelf none))
  · obtain ⟨s, zero⟩ := Double.zeroParts first
    obtain ⟨t, other⟩ := Double.zeroParts second
    exact .inl (floatsEqual (by rw [zero, other]; rfl) (by rw [zero, other]; rfl))

theorem compareWhole {x : Float} {n : Int} (whole : IsWhole x n) (safe : isSafe n = true) :
    (Number.float x).equals (.int n) = true := by
  obtain ⟨b, kind, _, _, same⟩ := Double.kindInteger whole safe
  simp only [equals, compare?, kind, same]
  rfl

theorem agreeSame {a b : Number} (agree : Agree a b) : Same a b := by
  cases agree with
  | int n => exact .inl (by simp [equals, compare?])
  | float close => exact floatSame close
  | whole safe same => exact .inl (compareWhole same safe)

/-! Operands -/

/-- Whether the number keeps its value as a double. -/
def isSteady : Number → Bool
  | .int n => isSafe n
  | .float _ => true

/-- Whether an operation on integers, if code has integers here, keeps the value as a double. -/
def staysSafe (ints : Int → Int → Int) (a b : Number) : Bool :=
  match a.spelled, b.spelled with
  | .int n, .int m => isSafe (ints n m)
  | _, _ => true

/-- Whether a sum, a difference or a product is the same for integers and for doubles. -/
def steadyArith (ints : Int → Int → Int) (a b : Number) : Bool :=
  match a, b with
  | .int _, .int _ => true
  | _, _ => a.isSteady && b.isSteady && staysSafe ints a b

section Operands

variable {a a' b b' : Number}

theorem closeWhole {x y : Float} {n : Int} (first : IsWhole x n) (second : IsWhole y n) : Close x y := by
  by_cases none : n = 0
  · subst none
    exact .inr ⟨first, second⟩
  · exact .inl (Double.wholeUnique first second none)

theorem floatInt {n : Int} (safe : isSafe n = true) : ∃ x, (Number.int n).toFloat = .ok x ∧ IsWhole x n := by
  exact ⟨_, by rw [toFloat, Double.ofIntSafe safe], Double.ratioWhole n⟩

theorem agreeFloats (agree : Agree a a') (steady : a.isSteady = true) :
    ∃ x y, a.toFloat = .ok x ∧ a'.toFloat = .ok y ∧ Close x y ∧ Agree (.float x) a' := by
  cases agree with
  | int n =>
    obtain ⟨x, found, whole⟩ := floatInt steady
    exact ⟨x, x, found, found, .inl rfl, .whole steady whole⟩
  | float close => exact ⟨_, _, rfl, rfl, close, .float close⟩
  | whole safe same =>
    obtain ⟨y, found, whole⟩ := floatInt safe
    exact ⟨_, y, rfl, found, closeWhole same whole, .whole safe same⟩

theorem spelledWhole {x : Float} {n : Int} (whole : IsWhole x n) (safe : isSafe n = true) :
    (Number.float x).spelled = .int n := by
  have small : n.natAbs < 2 ^ 53 := by simpa [isSafe] using safe
  obtain ⟨b, kind, integer, truncated, _⟩ := Double.kindInteger whole safe
  simp only [spelled, kind, integer, truncated, Nat.pow_eq, small, decide_true, Bool.and_self, if_true]

/-- A literal and what code has for it. -/
theorem agreeSpelled (a : Number) : Agree a a.spelled := by
  cases a with
  | int n => exact .int n
  | float x =>
    simp only [spelled]
    split
    case h_1 b kind =>
      split
      case isTrue integer =>
        simp only [Nat.pow_eq, Bool.and_eq_true, decide_eq_true_eq] at integer
        exact .whole (decide_eq_true integer.2) (Double.integerWhole kind integer.1 integer.2)
      case isFalse => exact .float (.inl rfl)
    case h_2 => exact .float (.inl rfl)

theorem agreeInt {n : Int} (agree : Agree a (.int n)) (steady : a.isSteady = true) :
    isSafe n = true ∧ a.spelled = .int n ∧ ∃ x, a.toFloat = .ok x ∧ IsWhole x n := by
  cases agree with
  | int => exact ⟨steady, rfl, floatInt steady⟩
  | whole safe same => exact ⟨safe, spelledWhole same safe, _, rfl, same⟩

/-! Sums, differences and products -/

section Arith

variable {ints : Int → Int → Int} {floats : Float → Float → Float}

theorem arithFloats {x y : Float} (left : a.toFloat = .ok x) (right : b.toFloat = .ok y)
    (doubles : ¬ ∃ n m, a = .int n ∧ b = .int m) : arith ints floats a b = .ok (.float (floats x y)) := by
  unfold arith
  split
  case h_1 n m => exact absurd ⟨n, m, rfl, rfl⟩ doubles
  case h_2 => simp only [left, right, bind, Except.bind, pure, Except.pure]

theorem arithAgree (wholes : ∀ {x y n m}, IsWhole x n → IsWhole y m → isSafe n = true → isSafe m = true →
      isSafe (ints n m) = true → IsWhole (floats x y) (ints n m))
    (close : ∀ {x x' y y'}, Close x x' → Close y y' → Close (floats x y) (floats x' y'))
    (left : Agree a a') (right : Agree b b') (steady : steadyArith ints a b = true) :
    ∃ r r', arith ints floats a b = .ok r ∧ arith ints floats a' b' = .ok r' ∧ Agree r r' := by
  by_cases integers : ∃ n m, a = .int n ∧ b = .int m
  · obtain ⟨n, m, rfl, rfl⟩ := integers
    cases left
    cases right
    exact ⟨_, _, rfl, rfl, .int _⟩
  · have both : (a.isSteady = true ∧ b.isSteady = true) ∧ staysSafe ints a b = true := by
      unfold steadyArith at steady
      split at steady
      case h_1 n m => exact absurd ⟨n, m, rfl, rfl⟩ integers
      case h_2 => simpa using steady
    obtain ⟨⟨first, second⟩, fits⟩ := both
    obtain ⟨x, x', foundX, foundX', closeX, _⟩ := agreeFloats left first
    obtain ⟨y, y', foundY, foundY', closeY, _⟩ := agreeFloats right second
    by_cases computed : ∃ n m, a' = .int n ∧ b' = .int m
    · obtain ⟨n, m, rfl, rfl⟩ := computed
      obtain ⟨safeLeft, spelledLeft, u, foundU, wholeLeft⟩ := agreeInt left first
      obtain ⟨safeRight, spelledRight, v, foundV, wholeRight⟩ := agreeInt right second
      have fitting : isSafe (ints n m) = true := by simpa [staysSafe, spelledLeft, spelledRight] using fits
      exact ⟨_, _, arithFloats foundU foundV integers, rfl,
        .whole fitting (wholes wholeLeft wholeRight safeLeft safeRight fitting)⟩
    · exact ⟨_, _, arithFloats foundX foundY integers, arithFloats foundX' foundY' computed,
        .float (close closeX closeY)⟩

theorem addAgree (left : Agree a a') (right : Agree b b') (steady : steadyArith (· + ·) a b = true) :
    ∃ r r', a.add b = .ok r ∧ a'.add b' = .ok r' ∧ Agree r r' :=
  arithAgree Double.addWhole Double.addClose left right steady

theorem subAgree (left : Agree a a') (right : Agree b b') (steady : steadyArith (· - ·) a b = true) :
    ∃ r r', a.sub b = .ok r ∧ a'.sub b' = .ok r' ∧ Agree r r' :=
  arithAgree Double.subWhole Double.subClose left right steady

theorem mulAgree (left : Agree a a') (right : Agree b b') (steady : steadyArith (· * ·) a b = true) :
    ∃ r r', a.mul b = .ok r ∧ a'.mul b' = .ok r' ∧ Agree r r' :=
  arithAgree Double.mulWhole Double.mulClose left right steady

theorem negateAgree (agree : Agree a b) : Agree a.negate b.negate := by
  cases agree with
  | int n => exact .int _
  | float close => exact .float (Double.negClose close)
  | whole safe same => exact .whole (by rwa [isSafe, Int.natAbs_neg]) (Double.negWhole safe same)

end Arith

/-! Zeros -/

theorem zeroInt (n : Int) : (Number.int n).isZero = true ↔ n = 0 := by
  rw [isZero, equals, compare?, beq_iff_eq, Option.some_inj, Int.compare_eq_eq]

theorem zeroFloat (x : Float) : (Number.float x).isZero = true ↔ ∃ s, parts x = .zero s := by
  simp only [isZero, equals, compare?, Double.kindParts]
  generalize parts x = u
  cases u with
  | notANumber => simp [Double.kind]
  | infinity s => cases s <;> simp [Double.kind]
  | zero s =>
    refine iff_of_true ?_ ⟨s, rfl⟩
    simp only [Double.kind, Double.Binary.compareInt, Int.zero_mul]
    cases s <;> rfl
  | finite s m e positive =>
    refine iff_of_false (fun same => ?_) (by simp)
    simp only [Double.kind, Double.Binary.compareInt, Int.zero_mul, beq_iff_eq, Option.some_inj] at same
    have size : 0 < (m : Int) * (Nat.pow 2 e.toNat : Nat) := by
      exact_mod_cast Nat.mul_pos positive (Nat.pow_pos (by decide))
    have equal := Int.compare_eq_eq.mp (Ordering.swap_eq_eq.mp same)
    generalize (m : Int) * (Nat.pow 2 e.toNat : Nat) = k at size equal
    split at equal <;> omega

theorem zeroWhole {x : Float} {n : Int} (whole : IsWhole x n) (safe : isSafe n = true) :
    (∃ s, parts x = .zero s) ↔ n = 0 := by
  constructor
  · rintro ⟨s, zero⟩
    by_contra some
    obtain ⟨t, m, e, h, found⟩ := Double.wholeParts whole safe some
    rw [found] at zero
    cases zero
  · rintro rfl
    exact Double.zeroParts whole

theorem zeroSteady {x : Float} (steady : a.isSteady = true) (found : a.toFloat = .ok x) :
    a.isZero = true ↔ ∃ s, parts x = .zero s := by
  cases a with
  | float y =>
    cases found
    exact zeroFloat x
  | int n =>
    obtain ⟨y, other, whole⟩ := floatInt steady
    obtain rfl : x = y := by simpa [found] using other
    rw [zeroInt, zeroWhole whole steady]

theorem agreeZero (agree : Agree a a') (steady : a.isSteady = true) : a.isZero = a'.isZero := by
  rw [Bool.eq_iff_iff]
  cases agree with
  | int => exact Iff.rfl
  | float close =>
    rw [zeroFloat, zeroFloat]
    obtain rfl | ⟨first, second⟩ := close
    · exact Iff.rfl
    · exact iff_of_true (Double.zeroParts first) (Double.zeroParts second)
  | whole safe same => rw [zeroFloat, zeroInt, zeroWhole same safe]

theorem closeSame {x y : Float} (close : Close x y) (some : ¬ ∃ s, parts x = .zero s) : x = y := by
  obtain same | ⟨first, _⟩ := close
  · exact same
  · exact absurd (Double.zeroParts first) some

/-! Quotients -/

/-- Whether the number is not NaN. -/
def hasValue : Number → Bool
  | .int _ => true
  | .float x => !Double.isNaN x

/-- Whether a quotient is the same for integers and for doubles, and the sign of a zero divisor is known. -/
def steadyQuotient (a b : Number) : Bool :=
  a.isSteady && b.isSteady && (!b.isZero || match b with
    | .int _ => a.hasValue
    | .float _ => false)

/-- A double that is divided by zero. -/
theorem divZero {x y : Float} (zero : parts y = .zero .positive) (number : parts x ≠ .notANumber) :
    x / y = if (Number.float x).isZero then Double.nan else Double.infinity (Double.isNegative x) := by
  refine Double.divParts ?_
  by_cases none : (Number.float x).isZero = true
  · obtain ⟨s, other⟩ := (zeroFloat x).mp none
    rw [if_pos none, zero, other, Double.partsNaN]
    rfl
  · rw [if_neg none, zero, Double.partsInfinity, Double.minusParts x number]
    have some := mt (zeroFloat x).mpr none
    generalize parts x = u at number some
    cases u with
    | notANumber => exact absurd rfl number
    | zero s => exact absurd ⟨s, rfl⟩ some
    | infinity s | finite s => cases s <;> rfl

theorem wholeNumber {x : Float} {n : Int} (whole : IsWhole x n) (safe : isSafe n = true) : parts x ≠ .notANumber := by
  obtain ⟨s, zero⟩ | ⟨s, m, e, h, found⟩ := Double.wholeCases whole safe
  · simp [zero]
  · simp [found]

theorem valueNumber {x : Float} (value : a.hasValue = true) (steady : a.isSteady = true) (found : a.toFloat = .ok x) :
    parts x ≠ .notANumber := by
  cases a with
  | float y =>
    cases found
    intro none
    simp [hasValue, Double.isNaN, Double.kindParts, none, Double.kind] at value
  | int n =>
    obtain ⟨y, other, whole⟩ := floatInt steady
    obtain rfl : x = y := by simpa [found] using other
    exact wholeNumber whole steady

/-- The quotient of integers that are doubles. -/
theorem quotientInts {n m : Int} (left : isSafe n = true) (right : isSafe m = true) (some : m ≠ 0) :
    ∃ x y, (Number.int n).toFloat = .ok x ∧ (Number.int m).toFloat = .ok y ∧
      (Number.int n).quotient (.int m) = .ok (.float (x / y)) := by
  have smallLeft : n.natAbs < 2 ^ 53 := by simpa [isSafe] using left
  have smallRight : m.natAbs < 2 ^ 53 := by simpa [isSafe] using right
  refine ⟨_, _, by rw [toFloat, Double.ofIntSafe left], by rw [toFloat, Double.ofIntSafe right], ?_⟩
  rw [Double.divWhole _ _ (by omega) smallLeft smallRight]
  simp only [quotient, Double.ratioFinite _ (show m.natAbs ≠ 0 by omega) smallLeft smallRight, Bool.false_eq_true,
    if_false]

theorem quotientFloats {x y : Float} (left : a.toFloat = .ok x) (right : b.toFloat = .ok y) (first : a.isSteady = true)
    (second : b.isSteady = true) (some : b.isZero = false) : a.quotient b = .ok (.float (x / y)) := by
  by_cases integers : ∃ n m, a = .int n ∧ b = .int m
  · obtain ⟨n, m, rfl, rfl⟩ := integers
    have other : m ≠ 0 := fun none => by simp [(zeroInt m).mpr none] at some
    obtain ⟨u, v, foundU, foundV, result⟩ := quotientInts first second other
    obtain rfl : x = u := by simpa [left] using foundU
    obtain rfl : y = v := by simpa [right] using foundV
    exact result
  · unfold quotient
    split
    case h_1 n m => exact absurd ⟨n, m, rfl, rfl⟩ integers
    case h_2 => simp only [left, right, bind, Except.bind, pure, Except.pure]

theorem divAgree (left : Agree a a') (right : Agree b b') (steady : steadyQuotient a b = true) :
    ∃ r x y, constantBinary .div a b = some (.ok r) ∧ a'.toFloat = .ok x ∧ b'.toFloat = .ok y ∧
      Agree r (.float (x / y)) := by
  simp only [steadyQuotient, Bool.and_eq_true] at steady
  obtain ⟨⟨first, second⟩, divisor⟩ := steady
  obtain ⟨x, x', foundX, foundX', closeX, _⟩ := agreeFloats left first
  obtain ⟨y, y', foundY, foundY', closeY, _⟩ := agreeFloats right second
  by_cases zero : b.isZero = true
  · obtain ⟨rfl, value⟩ : b = .int 0 ∧ a.hasValue = true := by
      cases b with
      | float => simp [zero] at divisor
      | int m =>
        obtain rfl := (zeroInt m).mp zero
        exact ⟨rfl, by simpa [zero] using divisor⟩
    cases right
    have plus : parts y' = .zero .positive := by
      rw [toFloat, Double.ofIntSafe second] at foundY'
      cases foundY'
      exact Double.partsZero false
    have number := valueNumber value first foundX
    by_cases none : a.isZero = true
    · have other := (zeroFloat x).mpr ((zeroSteady first foundX).mp none)
      rw [agreeZero (.float closeX) rfl] at other
      have quotient := divZero plus (x := x') (by
        obtain ⟨s, found⟩ := (zeroFloat x').mp other
        simp [found])
      rw [if_pos other] at quotient
      refine ⟨_, x', y', ?_, foundX', foundY', .float (.inl quotient.symm)⟩
      rw [constantBinary, if_pos zero, if_pos none]
      rfl
    · have some := mt (zeroSteady first foundX).mpr none
      obtain rfl := closeSame closeX some
      have quotient := divZero plus number
      rw [if_neg (mt (zeroFloat x).mp some)] at quotient
      refine ⟨_, x, y', ?_, foundX', foundY', .float (.inl quotient.symm)⟩
      rw [constantBinary, if_pos zero, if_neg none, foundX]
      rfl
  · have some := mt (zeroSteady second foundY).mpr zero
    obtain rfl := closeSame closeY some
    refine ⟨_, x', y, ?_, foundX', foundY', .float (Double.divClose closeX y)⟩
    have quotient := quotientFloats foundX foundY first second (by simpa using zero)
    rw [constantBinary, if_neg zero, quotient]

/-! Remainders -/

/-- Whether a remainder is the same for integers and for doubles. There is none of an infinity. -/
def steadyRemainder (a b : Number) : Bool :=
  a.isSteady && b.isSteady && match a with
    | .int _ => true
    | .float x => !Double.isInfinite x

theorem agreeSelf (a : Number) : Agree a a := by
  cases a with
  | int n => exact .int n
  | float => exact .float (.inl rfl)

theorem agreeSteady (agree : Agree a a') (steady : a.isSteady = true) : a'.isSteady = true := by
  cases agree with
  | int => exact steady
  | float => rfl
  | whole safe => exact safe

theorem finiteWhole {x : Float} {n : Int} (whole : IsWhole x n) (safe : isSafe n = true) :
    Double.isNaN x = false ∧ Double.isInfinite x = false := by
  obtain ⟨b, kind, _⟩ := Double.kindInteger whole safe
  constructor
  · rw [Double.isNaN, kind]
  · rw [Double.isInfinite, kind]

theorem intNaN {n : Int} (safe : isSafe n = true) : (Number.int n).isNaN = .ok false := by
  obtain ⟨x, found, whole⟩ := floatInt safe
  rw [isNaN, found]
  rfl

theorem steadyNaN {x : Float} (steady : a.isSteady = true) (found : a.toFloat = .ok x) :
    a.isNaN = .ok (Double.isNaN x) := by
  cases a with
  | float y =>
    cases found
    rfl
  | int n =>
    obtain ⟨y, other, whole⟩ := floatInt steady
    obtain rfl : x = y := by simpa [found] using other
    rw [(finiteWhole whole steady).1, intNaN steady]

theorem floatInfinite {x : Float} (found : a.toFloat = .ok x) : a.isInfinite = .ok (Double.isInfinite x) := by
  rw [isInfinite, found]
  rfl

theorem closeNaN {x y : Float} (close : Close x y) : Double.isNaN x = Double.isNaN y := by
  obtain rfl | ⟨first, second⟩ := close
  · rfl
  · rw [(finiteWhole first rfl).1, (finiteWhole second rfl).1]

theorem closeInfinite {x y : Float} (close : Close x y) : Double.isInfinite x = Double.isInfinite y := by
  obtain rfl | ⟨first, second⟩ := close
  · rfl
  · rw [(finiteWhole first rfl).2, (finiteWhole second rfl).2]

/-- What is left of two numbers whose doubles are finite, if the second is not zero. -/
def rest (a b : Number) (x y : Float) : Number :=
  match a, b with
  | .int n, .int m => .int (Int.tmod n m)
  | _, _ => .float (Double.floatRemainder x y)

theorem toNumberNumber (s : Store) (n : Number) : Value.toNumber s (.number n) = .ok n := rfl

theorem remainderRun (s : Store) {x y : Float} (left : a.toFloat = .ok x) (right : b.toFloat = .ok y)
    (first : a.isSteady = true) (second : b.isSteady = true) : Value.remainder s (.number a) (.number b) = .ok (
      if Double.isNaN x || Double.isNaN y || Double.isInfinite x || b.isZero then nan
      else if Double.isInfinite y then a
      else rest a b x y) := by
  simp only [Value.remainder, toNumberNumber, steadyNaN first left, steadyNaN second right, floatInfinite left,
    floatInfinite right, bind, Except.bind, pure, Except.pure]
  cases Double.isNaN x <;> cases Double.isNaN y <;> cases Double.isInfinite x <;> cases b.isZero <;>
    cases Double.isInfinite y <;> try rfl
  cases a <;> cases b <;> simp only [left, right, rest, Bool.or_self, Bool.false_eq_true, if_false]

theorem remainderNaN {x y : Float} (none : (Double.isNaN x || Double.isNaN y) = true) :
    Double.floatRemainder x y = Double.nan := by
  unfold Double.floatRemainder
  cases first : floatKind x <;> cases second : floatKind y <;> first | rfl | simp [Double.isNaN, first, second] at none

theorem remainderInfinite {x y : Float} (number : Double.isNaN x = false) (finite : Double.isInfinite x = false)
    (infinite : Double.isInfinite y = true) : Double.floatRemainder x y = x := by
  obtain ⟨b, first⟩ : ∃ b, floatKind x = .finite b := by
    cases kind : floatKind x with
    | nan => simp [Double.isNaN, kind] at number
    | infinite => simp [Double.isInfinite, kind] at finite
    | finite b => exact ⟨b, rfl⟩
  obtain ⟨negative, second⟩ : ∃ negative, floatKind y = .infinite negative := by
    cases kind : floatKind y with
    | infinite negative => exact ⟨negative, rfl⟩
    | _ => simp [Double.isInfinite, kind] at infinite
  simp only [Double.floatRemainder, first, second]

theorem remAgree (left : Agree a a') (right : Agree b b') (steady : steadyRemainder a b = true) :
    ∃ r r', constantBinary .rem a b = some (.ok r) ∧
      (∀ s, Value.remainder s (.number a') (.number b') = .ok r') ∧ Agree r r' := by
  simp only [steadyRemainder, Bool.and_eq_true] at steady
  obtain ⟨⟨first, second⟩, bounded⟩ := steady
  obtain ⟨x, x', foundX, foundX', closeX, agreeX⟩ := agreeFloats left first
  obtain ⟨y, y', foundY, foundY', closeY, agreeY⟩ := agreeFloats right second
  have run s := remainderRun s foundX' foundY' (agreeSteady left first) (agreeSteady right second)
  have finite : Double.isInfinite x = false := by
    cases a with
    | float =>
      cases foundX
      simpa using bounded
    | int n =>
      obtain ⟨z, other, whole⟩ := floatInt first
      obtain rfl : x = z := by simpa [foundX] using other
      exact (finiteWhole whole first).2
  simp only [← closeNaN closeX, ← closeNaN closeY, ← closeInfinite closeX, ← closeInfinite closeY,
    ← agreeZero right second, finite] at run
  by_cases zero : b.isZero = true
  · simp only [zero, Bool.or_true, if_true] at run
    have folded : constantBinary .rem a b = some (.ok nan) := by
      rw [constantBinary, if_pos zero]
    exact ⟨_, _, folded, run, .float (.inl rfl)⟩
  have folded : constantBinary .rem a b = some (.ok (.float (Double.floatRemainder x y))) := by
    simp only [constantBinary, zero, floatModulo, foundX, foundY, finite, bind, Except.bind, pure, Except.pure]
    rfl
  refine ⟨_, _, folded, run, ?_⟩
  by_cases none : (Double.isNaN x || Double.isNaN y) = true
  · rw [if_pos (by simp [none]), remainderNaN none]
    exact .float (.inl rfl)
  have numbers : Double.isNaN x = false ∧ Double.isNaN y = false := by simpa using none
  rw [if_neg (by simp [numbers, zero])]
  by_cases infinite : Double.isInfinite y = true
  · rw [if_pos infinite, remainderInfinite numbers.1 finite infinite]
    exact agreeX
  rw [if_neg infinite]
  have some := mt (zeroSteady second foundY).mpr zero
  obtain rfl := closeSame closeY some
  unfold rest
  split
  case h_1 n m =>
    obtain ⟨safeLeft, _, u, foundU, wholeLeft⟩ := agreeInt left first
    obtain ⟨safeRight, _, v, foundV, wholeRight⟩ := agreeInt right second
    obtain rfl : x = u := by simpa [foundX] using foundU
    obtain rfl : y = v := by simpa [foundY] using foundV
    have whole := Double.remWhole wholeLeft wholeRight safeLeft safeRight (mt (zeroWhole wholeRight safeRight).mpr some)
    refine .whole ?_ whole
    have bound : n.natAbs < 2 ^ 53 := by simpa [isSafe] using safeLeft
    have least := Nat.mod_le n.natAbs m.natAbs
    rw [isSafe, Int.natAbs_tmod]
    exact decide_eq_true (by omega)
  case h_2 => exact .float (Double.remClose closeX y)

/-! Powers -/

/-- Whether code spells the number as the checker has it. -/
def isKept : Number → Bool
  | .int n => isSafe n
  | .float x => match (Number.float x).spelled with
    | .int _ => false
    | .float _ => true

/-- Whether the number has no fraction. -/
def isWhole : Number → Bool
  | .int _ => true
  | .float x => Double.isIntegral x

/-- Whether a power is one of doubles: the operands are neither zero nor NaN, a negative base has a whole exponent, and
the result is in range. -/
def plainPower (a b : Number) : Bool :=
  a.isKept && b.isKept && !a.isZero && !b.isZero && a.hasValue && b.hasValue && (!a.isBelowZero || b.isWhole) &&
    match a.toFloat, b.toFloat with
    | .ok x, .ok y => !Double.isInfinite y && (Double.isInfinite x || !Double.isInfinite (x.pow y))
    | _, _ => false

/-- Whether a power is the same for the checker and for code. A natural power of an integer has to be a small one. -/
def steadyPower (a b : Number) : Bool :=
  match a, b with
  | .int n, .int k => if 0 ≤ k then k ≤ 1074 && isSafe (Int.pow n k.toNat) else plainPower a b
  | _, _ => plainPower a b

theorem keptSteady (kept : a.isKept = true) : a.isSteady = true := by
  cases a with
  | int => exact kept
  | float => rfl

theorem keptSame (agree : Agree a a') (kept : a.isKept = true) (some : a.isZero = false) : a' = a := by
  cases agree with
  | int => rfl
  | float close =>
    obtain rfl := closeSame close (mt (zeroFloat _).mpr (by simp [some]))
    rfl
  | whole safe same => simp [isKept, spelledWhole same safe] at kept

theorem zeroLiteral {x : Float} (nonzero : ¬ ∃ s, parts x = .zero s) : (x == 0.0) = false := by
  change ((parts x).compare (.zero .positive) == some .eq) = false
  cases found : parts x with
  | zero s => exact absurd ⟨s, found⟩ nonzero
  | notANumber => rfl
  | infinity s | finite s => cases s <;> rfl

theorem notNaN {x : Float} (number : parts x ≠ .notANumber) : Double.isNaN x = false := by
  rw [Double.isNaN, Double.kindParts]
  cases found : parts x with
  | notANumber => exact absurd found number
  | _ => rfl

theorem powFloats {x y : Float} (left : a.toFloat = .ok x) (right : b.toFloat = .ok y)
    (doubles : ¬ ∃ n k, a = .int n ∧ b = .int k ∧ 0 ≤ k) : a.exactPower b = floatPower x y := by
  unfold exactPower
  split
  case h_1 n k =>
    rw [if_neg fun natural => doubles ⟨n, k, rfl, rfl, natural⟩, left, right]
    rfl
  case h_2 =>
    rw [left, right]
    rfl

/-- The exact power that code tries first. -/
def natural? (a b : Number) : Option Int :=
  match a, b with
  | .int n, .int k =>
    if 0 ≤ k ∧ k ≤ 1074 then
      let power := Int.pow n k.toNat
      if power.natAbs ≤ Nat.pow 2 53 then some power else none
    else none
  | _, _ => none

theorem naturalNone (small : ¬ ∃ n k, a = .int n ∧ b = .int k ∧ 0 ≤ k) : natural? a b = none := by
  unfold natural?
  split
  case h_1 n k => rw [if_neg fun natural => small ⟨n, k, rfl, rfl, natural.1⟩]
  case h_2 => rfl

/-- A power of numbers that are not special. -/
theorem powerRun (s : Store) {x y : Float} (left : a.toFloat = .ok x) (right : b.toFloat = .ok y)
    (first : a.isNaN = .ok false) (second : b.isNaN = .ok false) (finite : Double.isInfinite y = false)
    (exponent : b.isZero = false) : Value.power s (.number a) (.number b) = .ok (
      match natural? a b with
      | some result => .int result
      | none =>
        if a.isZero && b.isBelowZero then infinity (Value.isOdd b && a.hasMinus)
        else if Double.isInfinite (x.pow y) && !Double.isInfinite x then infinity (a.isBelowZero && Value.isOdd b)
        else .float (x.pow y)) := by
  have computed (exact : Option Int) : (match exact with
      | some result => Except.ok (Number.int result)
      | none =>
        if a.isZero && b.isBelowZero then .ok (infinity (Value.isOdd b && a.hasMinus))
        else if Double.isInfinite (x.pow y) && !Double.isInfinite x then .ok (infinity (a.isBelowZero && Value.isOdd b))
        else .ok (.float (x.pow y)) : Except Fault Number) = .ok (match exact with
      | some result => .int result
      | none =>
        if a.isZero && b.isBelowZero then infinity (Value.isOdd b && a.hasMinus)
        else if Double.isInfinite (x.pow y) && !Double.isInfinite x then infinity (a.isBelowZero && Value.isOdd b)
        else .float (x.pow y)) := by
    cases exact with
    | some => rfl
    | none => simp only [apply_ite Except.ok]
  simp only [Value.power, toNumberNumber, first, second, floatInfinite right, finite, exponent, left, right, bind,
    Except.bind, pure, Except.pure, Bool.false_eq_true, if_false, ite_self, Bool.not_false, Bool.and_true]
  exact computed (natural? a b)

/-- A power of doubles on both sides. -/
theorem plainRun (plain : plainPower a b = true) (small : ¬ ∃ n k, a = .int n ∧ b = .int k ∧ 0 ≤ k) :
    ∃ x : Float, a.exactPower b = .ok (.float x) ∧ ∀ s, Value.power s (.number a) (.number b) = .ok (.float x) := by
  simp only [plainPower, Bool.and_eq_true, Bool.not_eq_true'] at plain
  obtain ⟨⟨⟨⟨⟨⟨⟨first, second⟩, third⟩, fourth⟩, fifth⟩, sixth⟩, _⟩, bounded⟩ := plain
  have steady := keptSteady first
  have other := keptSteady second
  obtain ⟨x, _, foundX, _⟩ := agreeFloats (agreeSelf a) steady
  obtain ⟨y, _, foundY, _⟩ := agreeFloats (agreeSelf b) other
  simp only [foundX, foundY, Bool.and_eq_true, Bool.not_eq_true', Bool.or_eq_true] at bounded
  obtain ⟨finite, bounded⟩ := bounded
  have nonzero : (x == 0.0) = false := zeroLiteral (mt (zeroSteady steady foundX).mpr (by simp [third]))
  have result : (Double.isInfinite (x.pow y) && !Double.isInfinite x && !Double.isInfinite y) = false := by
    rcases bounded with base | power
    · simp [base]
    · simp [power]
  refine ⟨x.pow y, ?_, ?_⟩
  · rw [powFloats foundX foundY small, floatPower]
    simp only [nonzero, result, Bool.false_and, Bool.false_eq_true, if_false]
  · have numbers : a.isNaN = .ok false ∧ b.isNaN = .ok false := by
      rw [steadyNaN steady foundX, steadyNaN other foundY, notNaN (valueNumber fifth steady foundX),
        notNaN (valueNumber sixth other foundY)]
      exact ⟨rfl, rfl⟩
    intro s
    rw [powerRun s foundX foundY numbers.1 numbers.2 finite fourth, naturalNone small]
    simp only [finite, Bool.not_false, Bool.and_true] at result
    simp only [third, result, Bool.false_and, Bool.false_eq_true, if_false]

/-- A small natural power of an integer. -/
theorem powerNatural (s : Store) {n k : Int} (natural : 0 ≤ k) (few : k ≤ 1074)
    (small : isSafe (Int.pow n k.toNat) = true) :
    Value.power s (.number (.int n)) (.number (.int k)) = .ok (.int (Int.pow n k.toNat)) := by
  have bound : (Int.pow n k.toNat).natAbs < 2 ^ 53 := by simpa [isSafe] using small
  have safe : isSafe k = true := decide_eq_true (by omega)
  obtain ⟨y, foundY, wholeY⟩ := floatInt safe
  by_cases none : k = 0
  · subst none
    simp only [Value.power, toNumberNumber, intNaN safe, (zeroInt 0).mpr rfl, bind, Except.bind, pure, Except.pure,
      Bool.false_eq_true, if_false, if_true, Int.toNat_zero]
    exact congrArg (fun n => Except.ok (int n)) (Int.pow_zero n).symm
  · have base : isSafe n = true := by
      have least : n.natAbs ≤ n.natAbs ^ k.toNat := Nat.le_self_pow (by omega) _
      rw [Int.pow_eq, Int.natAbs_pow] at bound
      exact decide_eq_true (by omega)
    obtain ⟨x, foundX, wholeX⟩ := floatInt base
    have exponent : (Number.int k).isZero = false := by simpa using mt (zeroInt k).mp none
    have exact : natural? (.int n) (.int k) = some (Int.pow n k.toNat) := by
      simp only [natural?, natural, few, and_self, if_true, Nat.pow_eq]
      rw [if_pos (by omega)]
    rw [powerRun s foundX foundY (intNaN base) (intNaN safe) (finiteWhole wholeY safe).2 exponent, exact]

theorem powAgree (left : Agree a a') (right : Agree b b') (steady : steadyPower a b = true) :
    ∃ r r', constantBinary .pow a b = some (.ok r) ∧
      (∀ s, Value.power s (.number a') (.number b') = .ok r') ∧ Agree r r' := by
  by_cases small : ∃ n k, a = .int n ∧ b = .int k ∧ 0 ≤ k
  · obtain ⟨n, k, rfl, rfl, natural⟩ := small
    cases left
    cases right
    refine ⟨.int (Int.pow n k.toNat), .int (Int.pow n k.toNat), ?_, ?_, .int _⟩
    · unfold constantBinary exactPower
      simp only [natural, if_true]
    · simp only [steadyPower, natural, if_true, Bool.and_eq_true, decide_eq_true_eq] at steady
      exact fun s => powerNatural s natural steady.1 steady.2
  · have plain : plainPower a b = true := by
      unfold steadyPower at steady
      split at steady
      case h_1 n k =>
        rw [if_neg fun natural => small ⟨n, k, rfl, rfl, natural⟩] at steady
        exact steady
      case h_2 => exact steady
    have kept : a.isKept = true ∧ b.isKept = true ∧ a.isZero = false ∧ b.isZero = false := by
      simp only [plainPower, Bool.and_eq_true, Bool.not_eq_true'] at plain
      obtain ⟨⟨⟨⟨⟨⟨⟨first, second⟩, third⟩, fourth⟩, _⟩, _⟩, _⟩, _⟩ := plain
      exact ⟨first, second, third, fourth⟩
    obtain ⟨x, folded, run⟩ := plainRun plain small
    rw [keptSame left kept.1 kept.2.2.1, keptSame right kept.2.1 kept.2.2.2]
    refine ⟨_, _, ?_, run, .float (.inl rfl)⟩
    rw [constantBinary, folded]

end Operands

end Fragment.Number
